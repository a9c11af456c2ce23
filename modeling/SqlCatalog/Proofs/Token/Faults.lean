import SqlCatalog.Proofs.Token.NormalForm

/-!
# Faults in a source

A source that has no tokens is at fault at one place: the character there begins no token, or what
it opens is not closed up to the end of the source. The lexer reports this place, counted in
characters, and the source can be cut there: the tokens that were read before the fault was met are
all tokens of what stands before it.

## Main definitions

* `BeginsToken` says that the first of some characters can begin a token.
* `LexFault.At` says that a fault is where some characters begin.

## Main statements

* `at_of_scanToken`: the character that the lexer cannot go on from is at fault.
* `Reads.of_scan_fault`: the tokens before a fault end where it is.
* `tokenize_fault`: the place that is reported, and the tokens before it.
-/

namespace SqlCatalog

/-- Whether the first of the characters can begin a token, as far as it and the next one tell. -/
inductive BeginsToken : List Char → Prop
  | mark {c : Char} {cs : List Char} (h : c ∈ ['(', ')', ',', ';', '.']) : BeginsToken (c :: cs)
  | comparison {c : Char} {cs : List Char} (h : c ∈ ['=', '<', '>']) : BeginsToken (c :: cs)
  | differs (cs : List Char) : BeginsToken ('!' :: '=' :: cs)
  | quoted {c : Char} {cs : List Char} (h : c ∈ ['"', '\'']) : BeginsToken (c :: cs)
  | digit {c : Char} {cs : List Char} (h : c.isDigit = true) : BeginsToken (c :: cs)
  | negative {d : Char} {cs : List Char} (h : d.isDigit = true) : BeginsToken ('-' :: d :: cs)
  | word {c : Char} {cs : List Char} (h : isAlphabetic c = true ∨ c = '_') : BeginsToken (c :: cs)
  | line (cs : List Char) : BeginsToken ('-' :: '-' :: cs)
  | block (cs : List Char) : BeginsToken ('/' :: '*' :: cs)

/-- Whether the fault is where the characters begin, which go on to the end of the source. -/
inductive LexFault.At : LexFault → List Char → Prop
  | unexpected {c : Char} {cs : List Char} (h : ¬ BeginsToken (c :: cs)) :
      At (.unexpected c) (c :: cs)
  /-- All quotes after the first one are doubled. -/
  | openString (text : List Char) : At .openString ('\'' :: doubling '\'' text)
  | openName (text : List Char) : At .openName ('"' :: doubling '"' text)
  | openComment {body : List Char} (h : ¬ ['*', '/'] <:+: body) :
      At .openComment ('/' :: '*' :: body)

/-! ## Texts without an end -/

section Open

variable {cs : List Char}

/-- In a string literal without an end the quotes stand in pairs. -/
theorem doubling_of_takeString (h : takeString cs = none) : ∃ text, cs = doubling '\'' text := by
  fun_induction takeString cs with
  | case1 => exact ⟨[], rfl⟩
  | case2 cs ih =>
    obtain ⟨text, rfl⟩ := ih (Option.map_eq_none_iff.1 h)
    exact ⟨'\'' :: text, (doubling_mark _ text).symm⟩
  | case3 => cases h
  | case4 c cs _ hquote ih =>
    obtain ⟨text, rfl⟩ := ih (Option.map_eq_none_iff.1 h)
    exact ⟨c :: text, (doubling_of_ne (by simpa using hquote) text).symm⟩

/-- In a quoted name without an end the quotes stand in pairs. -/
theorem doubling_of_takeName (h : takeName cs = none) : ∃ text, cs = doubling '"' text := by
  fun_induction takeName cs with
  | case1 => exact ⟨[], rfl⟩
  | case2 cs ih =>
    obtain ⟨text, rfl⟩ := ih (Option.map_eq_none_iff.1 h)
    exact ⟨'"' :: text, (doubling_mark _ text).symm⟩
  | case3 => cases h
  | case4 c cs _ hquote ih =>
    obtain ⟨text, rfl⟩ := ih (Option.map_eq_none_iff.1 h)
    exact ⟨c :: text, (doubling_of_ne (by simpa using hquote) text).symm⟩

/-- A comment without an end has no delimiter in it. -/
theorem not_infix_of_takeComment (h : takeComment cs = none) : ¬ ['*', '/'] <:+: cs := by
  fun_induction takeComment cs with
  | case1 => simp
  | case2 => cases h
  | case3 c cs hopen ih =>
    intro hin
    rcases List.infix_cons_iff.1 hin with hclose | hin
    · obtain ⟨rfl, hslash⟩ := List.cons_prefix_cons.1 hclose
      obtain ⟨more, rfl⟩ := hslash
      exact hopen more rfl rfl
    · exact ih (Option.map_eq_none_iff.1 h) hin

end Open

/-! ## Where no token is read -/

section Tokens

variable {c : Char} {cs rest : List Char} {cause : LexFault}

/-- What tokens begin with, in the order in which the lexer asks for it. -/
theorem BeginsToken.first (h : BeginsToken (c :: cs)) :
    c = '-' ∨ c = '/' ∨ c ∈ ['(', ')', ',', ';', '.'] ∨ c ∈ ['=', '<', '>', '!'] ∨
      c ∈ ['"', '\''] ∨ c.isDigit = true ∨ isAlphabetic c = true ∨ c = '_' := by
  cases h with
  | negative | line => exact .inl rfl
  | block => exact .inr (.inl rfl)
  | mark h => exact .inr (.inr (.inl h))
  | comparison h =>
    exact .inr (.inr (.inr (.inl (List.mem_append_left ['!'] h))))
  | differs => exact .inr (.inr (.inr (.inl (by simp))))
  | quoted h => exact .inr (.inr (.inr (.inr (.inl h))))
  | digit h => exact .inr (.inr (.inr (.inr (.inr (.inl h)))))
  | word h => exact .inr (.inr (.inr (.inr (.inr (.inr h)))))

/-- Of these characters none begins a token alone. -/
theorem BeginsToken.next (h : BeginsToken (c :: cs)) (hc : c ∈ ['!', '-', '/']) :
    (c = '!' ∧ ∃ more, cs = '=' :: more) ∨
      (c = '-' ∧ ∃ d more, cs = d :: more ∧ (d = '-' ∨ d.isDigit = true)) ∨
        (c = '/' ∧ ∃ more, cs = '*' :: more) := by
  cases h with
  | mark h | comparison h | quoted h =>
    simp only [List.mem_cons, List.not_mem_nil, or_false] at h hc
    rcases hc with rfl | rfl | rfl <;> simp at h
  | digit h =>
    simp only [List.mem_cons, List.not_mem_nil, or_false] at hc
    rcases hc with rfl | rfl | rfl <;> exact absurd h (by decide)
  | word h =>
    simp only [List.mem_cons, List.not_mem_nil, or_false] at hc
    rcases hc with rfl | rfl | rfl <;> exact absurd h (by decide +kernel)
  | differs more => exact .inl ⟨rfl, more, rfl⟩
  | @negative d more h => exact .inr (.inl ⟨rfl, d, more, rfl, .inr h⟩)
  | line more => exact .inr (.inl ⟨rfl, '-', more, rfl, .inl rfl⟩)
  | block more => exact .inr (.inr ⟨rfl, more, rfl⟩)

/-- A minus that begins no token stands at the fault. -/
theorem at_of_scanMinus (h : scanMinus cs = .error cause) : cause.At ('-' :: cs) := by
  have fault (hcause : cause = .unexpected '-')
      (hnext : ∀ d more, cs = d :: more → d ≠ '-' ∧ d.isDigit = false) : cause.At ('-' :: cs) := by
    rw [hcause]
    refine .unexpected fun hbegins => ?_
    obtain ⟨hc, -⟩ | ⟨-, d, more, rfl, rfl | hdigit⟩ | ⟨hc, -⟩ := hbegins.next (by decide)
    · exact absurd hc (by decide)
    · exact (hnext _ _ rfl).1 rfl
    · exact absurd hdigit (by simp [(hnext _ _ rfl).2])
    · exact absurd hc (by decide)
  unfold scanMinus at h
  split at h
  · cases h
  · rename_i d more hminus
    split at h
    · cases h
    · rename_i hdigit
      refine fault (Except.error.inj h).symm fun e _ he => ?_
      obtain ⟨rfl, -⟩ := List.cons.inj he
      exact ⟨hminus, by simpa using hdigit⟩
  · exact fault (Except.error.inj h).symm fun _ _ he => by cases he

/-- The one operator character that begins no comparison alone stands at the fault. -/
theorem at_of_scanComparison (hc : c ∈ ['=', '<', '>', '!'])
    (h : scanComparison c cs = .error cause) : cause.At (c :: cs) := by
  unfold scanComparison at h
  split at h
  case h_5 hne =>
    rw [← Except.error.inj h]
    refine .unexpected fun hbegins => ?_
    obtain ⟨-, more, rfl⟩ | ⟨hc, -⟩ | ⟨hc, -⟩ := hbegins.next (by decide)
    · exact hne more rfl
    · exact absurd hc (by decide)
    · exact absurd hc (by decide)
  all_goals cases h

/-- The character that the lexer cannot go on from is at fault. -/
theorem at_of_scanToken (h : scanToken c cs = .error cause) : cause.At (c :: cs) := by
  unfold scanToken at h
  split at h
  · rename_i hminus
    obtain rfl : c = '-' := by simpa using hminus
    exact at_of_scanMinus h
  split at h
  · rename_i hslash
    obtain rfl : c = '/' := by simpa using hslash
    split at h
    · split at h
      · cases h
      · rename_i hopen
        rw [← Except.error.inj h]
        exact .openComment (not_infix_of_takeComment hopen)
    · rename_i hblock
      rw [← Except.error.inj h]
      refine .unexpected fun hbegins => ?_
      obtain ⟨hc, -⟩ | ⟨hc, -⟩ | ⟨-, more, rfl⟩ := hbegins.next (by decide)
      · exact absurd hc (by decide)
      · exact absurd hc (by decide)
      · exact hblock more rfl
  split at h
  · cases h
  split at h
  · rename_i hcomparison
    exact at_of_scanComparison (List.contains_iff_mem.1 hcomparison) h
  split at h
  · rename_i hname
    obtain rfl : c = '"' := by simpa using hname
    split at h
    · cases h
    · rename_i hopen
      obtain ⟨text, rfl⟩ := doubling_of_takeName hopen
      rw [← Except.error.inj h]
      exact .openName text
  split at h
  · rename_i hstring
    obtain rfl : c = '\'' := by simpa using hstring
    split at h
    · cases h
    · rename_i hopen
      obtain ⟨text, rfl⟩ := doubling_of_takeString hopen
      rw [← Except.error.inj h]
      exact .openString text
  rename_i hminus hslash hmark hcomparison hname hstring
  unfold scanWord at h
  split at h
  · cases h
  rename_i hdigit
  split at h
  · cases h
  rename_i hletter
  rw [← Except.error.inj h]
  refine .unexpected fun hbegins => ?_
  obtain rfl | rfl | hin | hin | hin | hin | hin := hbegins.first
  · exact hminus (beq_self_eq_true _)
  · exact hslash (beq_self_eq_true _)
  · exact hmark (List.contains_iff_mem.2 hin)
  · exact hcomparison (List.contains_iff_mem.2 hin)
  · simp only [List.mem_cons, List.not_mem_nil, or_false] at hin
    rcases hin with rfl | rfl
    · exact hname (beq_self_eq_true _)
    · exact hstring (beq_self_eq_true _)
  · exact hdigit hin
  · exact hletter (by simpa using hin)

end Tokens

/-! ## The place of a fault -/

/-- The tokens before a fault end where it is. -/
theorem Reads.of_scan_fault {cs rest : List Char} {ts : List Token} {cause : LexFault}
    (h : scan cs = (ts, some (cause, rest))) :
    Reads cs ts rest ∧
      ∃ c after, rest = c :: after ∧ isBlank c = false ∧ scanToken c after = .error cause := by
  fun_induction scan cs generalizing ts with
  | case1 => cases (Prod.mk.inj h).2
  | case2 cs c after hcons cause' hscan =>
    obtain ⟨rfl, hfault⟩ := Prod.mk.inj h
    obtain ⟨rfl, rfl⟩ := Prod.mk.inj (Option.some.inj hfault)
    have hc : isBlank c = false := by
      simpa [hcons] using List.head?_dropWhile_not isBlank cs
    refine ⟨?_, c, after, rfl, hc, hscan⟩
    rw [← List.takeWhile_append_dropWhile (p := isBlank) (l := cs), hcons]
    exact blanks (fun d hd => List.mem_takeWhile_imp hd) (.done _)
  | case3 cs c after hcons t rest' hscan =>
    rename_i ih
    obtain ⟨rfl, hfault⟩ := Prod.mk.inj h
    obtain ⟨hreads, hplace⟩ := ih (Prod.ext rfl hfault)
    have hc : isBlank c = false := by
      simpa [hcons] using List.head?_dropWhile_not isBlank cs
    refine ⟨?_, hplace⟩
    rw [← List.takeWhile_append_dropWhile (p := isBlank) (l := cs), hcons]
    exact blanks (fun d hd => List.mem_takeWhile_imp hd) (.token hc hscan hreads)

/-- A source without tokens is one in which the lexer stops at a fault. -/
theorem tokenize_eq_error {source : String} {e : LexError} :
    tokenize source = .error e ↔ (scanSource source).2 = some e := by
  rw [tokenize]
  rcases scanSource source with ⟨ts, _ | e'⟩ <;> simp

/-- A source without tokens is at fault at one place, which is given by the number of characters
before it. What is before is a source of its own, and its tokens are all that were read. -/
theorem tokenize_fault {source : String} {e : LexError} (h : tokenize source = .error e) :
    ∃ cause before c after,
      e = .fault cause before.length ∧ source.toList = before ++ c :: after ∧
        isBlank c = false ∧ cause.At (c :: after) ∧
          tokenize (String.ofList before) = .ok (scanSource source).1 := by
  rcases hscan : scan source.toList with ⟨ts, _ | ⟨cause, rest⟩⟩
  · simp [tokenize, scanSource, hscan] at h
  · obtain ⟨hreads, c, after, rfl, hc, hfault⟩ := Reads.of_scan_fault hscan
    obtain ⟨before, hsource, hcut⟩ := hreads.replace (.inl (List.cons_ne_nil _ _))
    have hbefore : Reads before ts [] := by simpa using hcut [] .nil
    refine ⟨cause, before, c, after, ?_, hsource, hc, at_of_scanToken hfault, ?_⟩
    · have hfaultAt : tokenize source =
          .error (.fault cause (source.toList.length - (c :: after).length)) := by
        simp only [tokenize, scanSource, hscan, Option.map_some]
      rw [Except.error.inj (h.symm.trans hfaultAt), hsource, List.length_append,
        Nat.add_sub_cancel]
    · rw [scanSource, hscan]
      exact tokenize_eq_ok.2 (by rwa [String.toList_ofList])

/-- The place of a string literal without an end, after a comment and after characters of several
bytes each. -/
theorem tokenize_fault_string :
    let source := "e<='é€'--ü\n'b''c"
    tokenize source = .error (.fault .openString 11) ∧
      ∃ cause before c after,
        LexError.fault .openString 11 = .fault cause before.length ∧
          source.toList = before ++ c :: after ∧ isBlank c = false ∧ cause.At (c :: after) ∧
            tokenize (String.ofList before) = .ok (scanSource source).1 := by
  intro source
  have herror : tokenize source = .error (.fault .openString 11) :=
    tokenize_eq_error.2 (by decide +kernel)
  exact ⟨herror, tokenize_fault herror⟩

end SqlCatalog

import Mathlib.Data.List.TakeWhile
import SqlCatalog.Proofs.Token.Spelling

/-!
# The lexer is local

Reading a token looks at one character beyond it at most, so that what follows a token can be
replaced without a change to the token, by a text that begins with the same character or with one
that no token goes on with, or by nothing. The exception is a comment that the end of the source
cuts off before the end of its line: a line feed after it becomes a part of it.

## Main definitions

* `Reads` says that the lexer gets from one place of a source to another, and by which tokens.
* `endsToken` are the characters that no token goes on with.
* `MayFollow` says which text may stand in the place of another after a token.

## Main statements

* `scanToken_local`: what a token takes, and what may follow it.
* `Reads.replace`: what follows a place between tokens can be replaced.
* `Reads.line`: a line feed can stand at the end of a source.
-/

namespace SqlCatalog

/-! ## Places between tokens -/

/-- From the characters `cs` on, the lexer reads the tokens `ts` and then stands before `rest`, with
or without white space that it passed over. -/
inductive Reads : List Char → List Token → List Char → Prop
  | done (cs : List Char) : Reads cs [] cs
  | blank {c : Char} {cs rest : List Char} {ts : List Token} (hc : isBlank c = true)
      (h : Reads cs ts rest) : Reads (c :: cs) ts rest
  | token {c : Char} {cs after rest : List Char} {t : Token} {ts : List Token}
      (hc : isBlank c = false) (ht : scanToken c cs = .ok (t, after)) (h : Reads after ts rest) :
      Reads (c :: cs) (t :: ts) rest

/-- One step of the lexer: white space is skipped, then a token or a fault is met. -/
theorem scan_eq (cs : List Char) : scan cs =
    match cs.dropWhile isBlank with
    | [] => ([], none)
    | c :: after =>
      match scanToken c after with
      | .error cause => ([], some (cause, c :: after))
      | .ok (t, rest) => (t :: (scan rest).1, (scan rest).2) := by
  rw [scan]
  split
  · simp only [*]
  · split <;> simp only [*]

namespace Reads

variable {cs rest : List Char} {ts us : List Token}

/-- A source is read in two parts when the first leaves what the second begins with. -/
theorem append {last : List Char} (h : Reads cs ts rest) (hrest : Reads rest us last) :
    Reads cs (ts ++ us) last := by
  induction h with
  | done => exact hrest
  | blank hc _ ih => exact .blank hc (ih hrest)
  | token hc ht _ ih => exact .token hc ht (ih hrest)

/-- The tokens of a source are those up to a place and those after it. -/
theorem scan_eq (h : Reads cs ts rest) : scan cs = (ts ++ (scan rest).1, (scan rest).2) := by
  induction h with
  | done => rfl
  | @blank c cs rest ts hc _ ih =>
    have hdrop : (c :: cs).dropWhile isBlank = cs.dropWhile isBlank := by
      rw [List.dropWhile_cons, if_pos hc]
    rw [← ih, SqlCatalog.scan_eq, hdrop, ← SqlCatalog.scan_eq]
  | @token c cs after rest t ts hc ht _ ih =>
    have hdrop : (c :: cs).dropWhile isBlank = c :: cs := by
      rw [List.dropWhile_cons, hc, if_neg Bool.false_ne_true]
    rw [scan_of_scanToken hdrop ht, ih]
    rfl

/-- White space is passed over. -/
theorem blanks {before : List Char} (hbefore : ∀ c ∈ before, isBlank c = true)
    (h : Reads cs ts rest) : Reads (before ++ cs) ts rest := by
  induction before with
  | nil => exact h
  | cons c before ih =>
    obtain ⟨hc, hbefore⟩ := List.forall_mem_cons.1 hbefore
    exact .blank hc (ih hbefore)

/-- A source without a fault is read to its end. -/
theorem of_scan (h : scan cs = (ts, none)) : Reads cs ts [] := by
  fun_induction scan cs generalizing ts with
  | case1 cs hblank =>
    obtain rfl : [] = ts := (Prod.mk.inj h).1
    have hall : ∀ c ∈ cs, isBlank c = true := by simpa using List.dropWhile_eq_nil_iff.1 hblank
    simpa using blanks hall (.done [])
  | case2 => cases (Prod.mk.inj h).2
  | case3 cs c after hcons t rest ht =>
    rename_i ih
    obtain ⟨rfl, hnone⟩ := Prod.mk.inj h
    have hc : isBlank c = false := by
      simpa [hcons] using List.head?_dropWhile_not isBlank cs
    rw [← List.takeWhile_append_dropWhile (p := isBlank) (l := cs), hcons]
    refine blanks (fun d hd => List.mem_takeWhile_imp hd) (.token hc ht (ih ?_))
    rw [← hnone]

end Reads

/-! ## What may follow a token -/

/-- Whether no token goes on with `c`. -/
def endsToken (c : Char) : Bool := !(['=', '>', '"', '\''].contains c) && !isWordChar c

/-- Whether `rest'` may stand after a token in the place of `rest`: it begins with the same
character, or no token goes on with it. -/
def MayFollow (rest rest' : List Char) : Prop :=
  rest'.head? = rest.head? ∨ ∀ c ∈ rest'.head?, endsToken c = true

variable {rest rest' : List Char}

theorem MayFollow.nil : MayFollow rest [] := .inr (by simp)

theorem MayFollow.of_endsToken {c : Char} (hc : endsToken c = true) : MayFollow rest (c :: rest') :=
  .inr (by simpa using hc)

/-- What may stand behind a token begins with a character that goes on with it only where the
first rest did. -/
theorem MayFollow.head?_ne (h : MayFollow rest rest') {c : Char} (hc : endsToken c = false)
    (hrest : rest.head? ≠ some c) : rest'.head? ≠ some c := by
  rcases h with h | h
  · rwa [h]
  · intro hhead
    rw [h c hhead] at hc
    cases hc

theorem isWordChar_of_endsToken {c : Char} (hc : endsToken c = true) : isWordChar c = false := by
  simpa using (Bool.and_eq_true_iff.1 hc).2

theorem isDigit_of_endsToken {c : Char} (hc : endsToken c = true) : c.isDigit = false := by
  refine Bool.eq_false_iff.2 fun hdigit => ?_
  have hword := isWordChar_of_isNameChar (isNameChar_of_isDigit hdigit)
  rw [isWordChar_of_endsToken hc] at hword
  cases hword

/-- What is taken while `p` holds is taken before whatever may follow, if `p` holds of no character
that a token does not go on with. -/
theorem MayFollow.span {p : Char → Bool} {cs : List Char}
    (hp : ∀ {c}, endsToken c = true → p c = false) (h : MayFollow (cs.dropWhile p) rest') :
    (cs.takeWhile p ++ rest').takeWhile p = cs.takeWhile p ∧
      (cs.takeWhile p ++ rest').dropWhile p = rest' := by
  refine span_append (fun c hc => List.mem_takeWhile_imp hc) fun c hc => ?_
  rcases h with h | h
  · have hnot := List.head?_dropWhile_not p cs
    rw [← h, hc] at hnot
    exact hnot
  · exact hp (h c hc)

/-! ## What the parts of a token take -/

theorem takeComment_ne_nil {cs r : List Char} (h : takeComment cs = some (r, rest)) : r ≠ [] := by
  rintro rfl
  unfold takeComment at h
  split at h
  · cases h
  · cases h
  · obtain ⟨u, -, hr⟩ := Option.map_eq_some_iff.1 h
    cases hr

/-- A comment is closed in itself, so that anything may follow it. -/
theorem takeComment_local {cs r : List Char} (h : takeComment cs = some (r, rest)) :
    cs = r ++ rest ∧ ∀ rest', takeComment (r ++ rest') = some (r, rest') := by
  fun_induction takeComment cs generalizing r with
  | case1 => cases h
  | case2 cs =>
    obtain ⟨rfl, rfl⟩ := Prod.mk.inj (Option.some.inj h)
    exact ⟨rfl, fun _ => rfl⟩
  | case3 c cs hopen ih =>
    obtain ⟨⟨u, after⟩, hu, hr⟩ := Option.map_eq_some_iff.1 h
    obtain ⟨rfl, rfl⟩ := Prod.mk.inj hr
    have hne := takeComment_ne_nil hu
    obtain ⟨rfl, hlocal⟩ := ih hu
    obtain ⟨d, u, rfl⟩ := List.exists_cons_of_ne_nil hne
    refine ⟨rfl, fun rest' => ?_⟩
    rw [List.cons_append, takeComment, hlocal]
    · rfl
    · rintro cs' rfl hcs
      exact hopen _ rfl (by rw [List.cons_append, (List.cons.inj hcs).1])

/-- A quoted name ends with its quote, unless another quote follows. -/
theorem takeName_local {cs r : List Char} (h : takeName cs = some (r, rest)) :
    ∃ body, cs = body ++ rest ∧
      ∀ rest', MayFollow rest rest' → takeName (body ++ rest') = some (r, rest') := by
  fun_induction takeName cs generalizing r with
  | case1 => cases h
  | case2 cs ih =>
    obtain ⟨⟨u, after⟩, hu, hr⟩ := Option.map_eq_some_iff.1 h
    obtain ⟨rfl, rfl⟩ := Prod.mk.inj hr
    obtain ⟨body, rfl, hlocal⟩ := ih hu
    refine ⟨'"' :: '"' :: body, rfl, fun rest' hrest => ?_⟩
    rw [List.cons_append, List.cons_append, takeName, hlocal rest' hrest]
    rfl
  | case3 c cs hdouble hquote =>
    obtain ⟨rfl, rfl⟩ := Prod.mk.inj (Option.some.inj h)
    obtain rfl : c = '"' := by simpa using hquote
    refine ⟨['"'], rfl, fun rest' hrest => ?_⟩
    have hnot : rest'.head? ≠ some '"' := hrest.head?_ne (by decide +kernel) fun hhead => by
      obtain ⟨cs', rfl⟩ := List.head?_eq_some_iff.1 hhead
      exact hdouble cs' rfl rfl
    rw [List.singleton_append, takeName, if_pos hquote]
    rintro cs' - rfl
    exact hnot rfl
  | case4 c cs hdouble hquote ih =>
    obtain ⟨⟨u, after⟩, hu, hr⟩ := Option.map_eq_some_iff.1 h
    obtain ⟨rfl, rfl⟩ := Prod.mk.inj hr
    obtain ⟨body, rfl, hlocal⟩ := ih hu
    refine ⟨c :: body, rfl, fun rest' hrest => ?_⟩
    rw [List.cons_append, takeName, if_neg hquote, hlocal rest' hrest]
    · rfl
    · rintro cs' rfl
      exact absurd rfl hquote

/-- A string literal ends with its quote, unless another quote follows. -/
theorem takeString_local {cs r : List Char} (h : takeString cs = some (r, rest)) :
    ∃ body, cs = body ++ rest ∧
      ∀ rest', MayFollow rest rest' → takeString (body ++ rest') = some (r, rest') := by
  fun_induction takeString cs generalizing r with
  | case1 => cases h
  | case2 cs ih =>
    obtain ⟨⟨u, after⟩, hu, hr⟩ := Option.map_eq_some_iff.1 h
    obtain ⟨rfl, rfl⟩ := Prod.mk.inj hr
    obtain ⟨body, rfl, hlocal⟩ := ih hu
    refine ⟨'\'' :: '\'' :: body, rfl, fun rest' hrest => ?_⟩
    rw [List.cons_append, List.cons_append, takeString, hlocal rest' hrest]
    rfl
  | case3 c cs hdouble hquote =>
    obtain ⟨rfl, rfl⟩ := Prod.mk.inj (Option.some.inj h)
    obtain rfl : c = '\'' := by simpa using hquote
    refine ⟨['\''], rfl, fun rest' hrest => ?_⟩
    have hnot : rest'.head? ≠ some '\'' := hrest.head?_ne (by decide +kernel) fun hhead => by
      obtain ⟨cs', rfl⟩ := List.head?_eq_some_iff.1 hhead
      exact hdouble cs' rfl rfl
    rw [List.singleton_append, takeString, if_pos hquote]
    rintro cs' - rfl
    exact hnot rfl
  | case4 c cs hdouble hquote ih =>
    obtain ⟨⟨u, after⟩, hu, hr⟩ := Option.map_eq_some_iff.1 h
    obtain ⟨rfl, rfl⟩ := Prod.mk.inj hr
    obtain ⟨body, rfl, hlocal⟩ := ih hu
    refine ⟨c :: body, rfl, fun rest' hrest => ?_⟩
    rw [List.cons_append, takeString, if_neg hquote, hlocal rest' hrest]
    · rfl
    · rintro cs' rfl
      exact absurd rfl hquote

/-- A line is closed by its line feed, so that anything may follow it, or the source ends before
the line does. -/
theorem takeLine_local (cs : List Char) :
    ∃ body, cs = body ++ (takeLine cs).2 ∧
      ((∀ rest', takeLine (body ++ rest') = ((takeLine cs).1, rest')) ∨
        (takeLine cs).2 = [] ∧
          ∀ rest', takeLine (body ++ '\n' :: rest') = ((takeLine cs).1 ++ ['\n'], rest')) := by
  fun_induction takeLine cs with
  | case1 => exact ⟨[], rfl, .inr ⟨rfl, fun _ => rfl⟩⟩
  | case2 cs => exact ⟨['\n'], rfl, .inl fun _ => rfl⟩
  | case3 c cs hc r ih =>
    obtain ⟨body, hcs, hlocal⟩ := ih
    have hcons (more : List Char) : takeLine (c :: more) =
        (c :: (takeLine more).1, (takeLine more).2) := by
      rw [takeLine]
      exact hc
    refine ⟨c :: body, by rw [List.cons_append, ← hcs], ?_⟩
    simp only [List.cons_append, hcons]
    rcases hlocal with hclosed | ⟨hend, hopen⟩
    · exact .inl fun rest' => by rw [hclosed rest']
    · exact .inr ⟨hend, fun rest' => by rw [hopen rest']⟩

/-! ## What a token takes -/

/-- The characters that a token takes are followed by `rest`, which can be replaced. -/
def Takes (scanner : List Char → Except LexFault (Token × List Char)) (cs : List Char) (t : Token)
    (rest : List Char) : Prop :=
  ∃ body, cs = body ++ rest ∧
    ∀ rest', MayFollow rest rest' → scanner (body ++ rest') = .ok (t, rest')

variable {c : Char} {cs : List Char} {t : Token}

/-- A comparison takes what it takes, whatever follows that may follow it. -/
theorem scanComparison_local (h : scanComparison c cs = .ok (t, rest)) :
    Takes (scanComparison c) cs t rest := by
  unfold scanComparison at h
  split at h
  · obtain ⟨rfl, rfl⟩ := Prod.mk.inj (Except.ok.inj h)
    exact ⟨['='], rfl, fun _ _ => rfl⟩
  · obtain ⟨rfl, rfl⟩ := Prod.mk.inj (Except.ok.inj h)
    exact ⟨['='], rfl, fun _ _ => rfl⟩
  · obtain ⟨rfl, rfl⟩ := Prod.mk.inj (Except.ok.inj h)
    exact ⟨['='], rfl, fun _ _ => rfl⟩
  · obtain ⟨rfl, rfl⟩ := Prod.mk.inj (Except.ok.inj h)
    exact ⟨['>'], rfl, fun _ _ => rfl⟩
  · cases h
  · rename_i hbang hle hge hne hdiffer
    obtain ⟨rfl, rfl⟩ := Prod.mk.inj (Except.ok.inj h)
    -- The operator is the one character, as no other character goes on with it.
    refine ⟨[], rfl, fun rest' hrest => ?_⟩
    have alone {d : Char} (hd : endsToken d = false) (hcs : ∀ more, cs = d :: more → False)
        (more : List Char) : rest' = d :: more → False := by
      rintro rfl
      refine hrest.head?_ne hd (fun hhead => ?_) rfl
      obtain ⟨more, rfl⟩ := List.head?_eq_some_iff.1 hhead
      exact hcs more rfl
    rw [List.nil_append, scanComparison]
    · exact hbang
    · exact fun more hc => alone (by decide +kernel) (fun more => hle more hc) more
    · exact fun more hc => alone (by decide +kernel) (fun more => hge more hc) more
    · exact fun more hc => alone (by decide +kernel) (fun more => hne more hc) more
    · exact fun more hc => alone (by decide +kernel) (fun more => hdiffer more hc) more

theorem scanWord_local (h : scanWord c cs = .ok (t, rest)) : Takes (scanWord c) cs t rest := by
  unfold scanWord at h
  split at h
  · rename_i hdigit
    obtain ⟨rfl, rfl⟩ := Prod.mk.inj (Except.ok.inj h)
    refine ⟨cs.takeWhile Char.isDigit, List.takeWhile_append_dropWhile.symm, fun rest' hrest => ?_⟩
    obtain ⟨htake, hdrop⟩ := hrest.span isDigit_of_endsToken
    rw [scanWord, if_pos hdigit, htake, hdrop]
  · rename_i hdigit
    split at h
    · rename_i hletter
      obtain ⟨rfl, rfl⟩ := Prod.mk.inj (Except.ok.inj h)
      refine ⟨cs.takeWhile isWordChar, List.takeWhile_append_dropWhile.symm,
        fun rest' hrest => ?_⟩
      obtain ⟨htake, hdrop⟩ := hrest.span isWordChar_of_endsToken
      rw [scanWord, if_neg hdigit, if_pos hletter, htake, hdrop]
    · cases h

/-- A token that begins with a minus sign is closed in itself, or it is a comment that the end of
the source cuts off. -/
theorem scanMinus_local (h : scanMinus cs = .ok (t, rest)) :
    ∃ body, cs = body ++ rest ∧
      ((∀ rest', MayFollow rest rest' → scanMinus (body ++ rest') = .ok (t, rest')) ∨
        rest = [] ∧ ∃ raw, t = .comment raw ∧
          ∀ rest', scanMinus (body ++ '\n' :: rest') = .ok (.comment (raw ++ "\n"), rest')) := by
  unfold scanMinus at h
  split at h
  · rename_i line
    obtain ⟨rfl, rfl⟩ := Prod.mk.inj (Except.ok.inj h)
    obtain ⟨body, hbody, hlocal⟩ := takeLine_local line
    refine ⟨'-' :: body, congrArg ('-' :: ·) hbody, ?_⟩
    rcases hlocal with hclosed | ⟨hend, hopen⟩
    · refine .inl fun rest' _ => ?_
      rw [List.cons_append, scanMinus, hclosed rest']
    · refine .inr ⟨hend, _, rfl, fun rest' => ?_⟩
      have htext : String.ofList ('-' :: '-' :: ((takeLine line).1 ++ ['\n'])) =
          String.ofList ('-' :: '-' :: (takeLine line).1) ++ "\n" := by
        rw [show "\n" = String.ofList ['\n'] from rfl, ← String.ofList_append]
        rfl
      rw [List.cons_append, scanMinus, hopen rest', ← htext]
  · rename_i d after hminus
    split at h
    · rename_i hdigit
      obtain ⟨rfl, rfl⟩ := Prod.mk.inj (Except.ok.inj h)
      refine ⟨(d :: after).takeWhile Char.isDigit, List.takeWhile_append_dropWhile.symm,
        .inl fun rest' hrest => ?_⟩
      obtain ⟨htake, hdrop⟩ := hrest.span isDigit_of_endsToken
      rw [List.takeWhile_cons, if_pos hdigit] at htake hdrop ⊢
      rw [List.cons_append, scanMinus, if_pos hdigit, ← List.cons_append, htake, hdrop]
      exact hminus
    · cases h
  · cases h

/-- What follows a token can be replaced, but a comment that the end of the source cuts off takes a
line feed that follows it. -/
theorem scanToken_local (h : scanToken c cs = .ok (t, rest)) :
    ∃ body, cs = body ++ rest ∧
      ((∀ rest', MayFollow rest rest' → scanToken c (body ++ rest') = .ok (t, rest')) ∨
        rest = [] ∧ ∃ raw, t = .comment raw ∧
          ∀ rest', scanToken c (body ++ '\n' :: rest') = .ok (.comment (raw ++ "\n"), rest')) := by
  -- Which part of the lexer reads a token is clear from its first character.
  simp only [scanToken] at h ⊢
  by_cases hminus : (c == '-') = true
  · simp only [hminus, if_true] at h ⊢
    exact scanMinus_local h
  simp only [hminus, Bool.false_eq_true, if_false] at h ⊢
  by_cases hslash : (c == '/') = true
  · simp only [hslash, if_true] at h ⊢
    split at h
    · rename_i inner
      split at h
      · rename_i r hr
        obtain ⟨rfl, rfl⟩ := Prod.mk.inj (Except.ok.inj h)
        obtain ⟨hinner, hlocal⟩ := takeComment_local hr
        refine ⟨'*' :: r.1, congrArg ('*' :: ·) hinner, .inl fun rest' _ => ?_⟩
        simp only [List.cons_append, hlocal rest']
      · cases h
    · cases h
  simp only [hslash, Bool.false_eq_true, if_false] at h ⊢
  by_cases hmark : ['(', ')', ',', ';', '.'].contains c = true
  · simp only [hmark, if_true] at h ⊢
    obtain ⟨rfl, rfl⟩ := Prod.mk.inj (Except.ok.inj h)
    exact ⟨[], rfl, .inl fun _ _ => rfl⟩
  simp only [hmark, Bool.false_eq_true, if_false] at h ⊢
  by_cases hcomparison : ['=', '<', '>', '!'].contains c = true
  · simp only [hcomparison, if_true] at h ⊢
    obtain ⟨body, hbody, hlocal⟩ := scanComparison_local h
    exact ⟨body, hbody, .inl hlocal⟩
  simp only [hcomparison, Bool.false_eq_true, if_false] at h ⊢
  by_cases hname : (c == '"') = true
  · simp only [hname, if_true] at h ⊢
    split at h
    · rename_i r hr
      obtain ⟨rfl, rfl⟩ := Prod.mk.inj (Except.ok.inj h)
      obtain ⟨body, hbody, hlocal⟩ := takeName_local hr
      refine ⟨body, hbody, .inl fun rest' hrest => ?_⟩
      simp only [hlocal rest' hrest]
    · cases h
  simp only [hname, Bool.false_eq_true, if_false] at h ⊢
  by_cases hstring : (c == '\'') = true
  · simp only [hstring, if_true] at h ⊢
    split at h
    · rename_i r hr
      obtain ⟨rfl, rfl⟩ := Prod.mk.inj (Except.ok.inj h)
      obtain ⟨body, hbody, hlocal⟩ := takeString_local hr
      refine ⟨body, hbody, .inl fun rest' hrest => ?_⟩
      simp only [hlocal rest' hrest]
    · cases h
  simp only [hstring, Bool.false_eq_true, if_false] at h ⊢
  obtain ⟨body, hbody, hlocal⟩ := scanWord_local h
  exact ⟨body, hbody, .inl hlocal⟩

/-! ## What a source is read as -/

/-- Texts that begin alike may follow alike, if what they end with may. -/
theorem mayFollow_append (before : List Char) (hrest : MayFollow rest rest') :
    MayFollow (before ++ rest) (before ++ rest') := by
  cases before with
  | nil => exact hrest
  | cons c before => exact .inl rfl

/-- What follows a place of a source can be replaced without a change to the tokens before that
place, unless the source ends there and a comment with it. -/
theorem Reads.replace {ts : List Token} (h : Reads cs ts rest)
    (hrest : rest ≠ [] ∨ ∀ t ∈ ts, t.isSignificant = true) :
    ∃ before, cs = before ++ rest ∧
      ∀ rest', MayFollow rest rest' → Reads (before ++ rest') ts rest' := by
  induction h with
  | done cs => exact ⟨[], rfl, fun rest' _ => .done rest'⟩
  | @blank c cs rest ts hc _ ih =>
    obtain ⟨before, rfl, hbefore⟩ := ih hrest
    exact ⟨c :: before, rfl, fun rest' hfollow => .blank hc (hbefore rest' hfollow)⟩
  | @token c cs after rest t ts hc ht _ ih =>
    obtain ⟨before, rfl, hbefore⟩ := ih (hrest.imp_right fun hts => (List.forall_mem_cons.1 hts).2)
    obtain ⟨body, rfl, hclosed | ⟨hend, raw, rfl, -⟩⟩ := scanToken_local ht
    · refine ⟨c :: (body ++ before), by simp, fun rest' hfollow => ?_⟩
      have htoken := hclosed _ (mayFollow_append before hfollow)
      rw [← List.append_assoc] at htoken
      exact .token hc htoken (hbefore rest' hfollow)
    · rcases hrest with hrest | hts
      · exact absurd (List.append_eq_nil_iff.1 hend).2 hrest
      · cases (List.forall_mem_cons.1 hts).1

/-- Whether the tokens are the same, but for a line feed at the end of the last one, a comment. -/
def EndsInLine (ts ts' : List Token) : Prop :=
  ts' = ts ∨ ∃ before raw, ts = before ++ [.comment raw] ∧ ts' = before ++ [.comment (raw ++ "\n")]

/-- A token before them does not decide how tokens end. -/
theorem EndsInLine.cons {ts ts' : List Token} (h : EndsInLine ts ts') (t : Token) :
    EndsInLine (t :: ts) (t :: ts') := by
  rcases h with rfl | ⟨before, raw, rfl, rfl⟩
  · exact .inl rfl
  · exact .inr ⟨t :: before, raw, rfl, rfl⟩

/-- A source can go on in a new line, which at most ends the comment that the source ends with. -/
theorem Reads.line {ts : List Token} (h : Reads cs ts []) :
    ∃ ts', EndsInLine ts ts' ∧ ∀ more, Reads (cs ++ '\n' :: more) ts' more := by
  generalize hend : ([] : List Char) = rest at h
  induction h with
  | done cs =>
    subst hend
    exact ⟨[], .inl rfl, fun more => .blank (by decide) (.done more)⟩
  | blank hc _ ih =>
    obtain ⟨ts', hts', hmore⟩ := ih hend
    exact ⟨ts', hts', fun more => .blank hc (hmore more)⟩
  | @token c cs after rest t ts hc ht hafter ih =>
    obtain ⟨body, rfl, hclosed | ⟨hnil, raw, rfl, hopen⟩⟩ := scanToken_local ht
    · obtain ⟨ts', hts', hmore⟩ := ih hend
      refine ⟨t :: ts', hts'.cons t, fun more => ?_⟩
      have hfollow : MayFollow after (after ++ '\n' :: more) := by
        cases after with
        | nil => exact .of_endsToken (by decide +kernel)
        | cons d after => exact .inl rfl
      have htoken := hclosed _ hfollow
      rw [← List.append_assoc] at htoken
      exact .token hc htoken (hmore more)
    · subst hnil
      cases hafter
      refine ⟨[.comment (raw ++ "\n")], .inr ⟨[], raw, rfl, rfl⟩, fun more => ?_⟩
      rw [List.append_nil]
      exact .token hc (hopen more) (.done more)

end SqlCatalog

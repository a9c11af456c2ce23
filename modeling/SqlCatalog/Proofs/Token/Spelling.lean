import SqlCatalog.Proofs.Lists
import SqlCatalog.Proofs.Query.References
import SqlCatalog.Proofs.Text.PlainNames

/-!
# Spelled tokens

Words, names, literals and marks are spelled so that the lexer reads each of them back as one
token, provided that a space or nothing follows: a word or a number would go on otherwise, and a
quote would be taken for half of a doubled one. A text of such spellings with single spaces between
them is read as their tokens.

## Main definitions

* `Boundary` says what may follow a spelling.
* `ReadsAs` says that a text is read as a token.

## Main statements

* `readsAs_wordToken`, `readsAs_nat`, `readsAs_int`, `readsAs_string`, `readsAs_name` and
  `readsAs_mark`: what is read as a token.
* `tokenize_joined`: texts with spaces between them are read as their tokens.
-/

namespace SqlCatalog

/-! ## Boundaries -/

/-- Whether a spelling may end before `rest`. -/
def Boundary (rest : List Char) : Prop := ∀ c ∈ rest.head?, c = ' '

/-- What is taken while `p` holds ends at a boundary, if `p` does not hold of a space. -/
theorem span_boundary {p : Char → Bool} {cs rest : List Char} (hcs : ∀ c ∈ cs, p c = true)
    (hspace : p ' ' = false) (hrest : Boundary rest) :
    (cs ++ rest).takeWhile p = cs ∧ (cs ++ rest).dropWhile p = rest :=
  span_append hcs fun c hc => (hrest c hc).symm ▸ hspace

/-- A boundary begins with a space or not at all. -/
theorem Boundary.head?_ne {rest : List Char} (hrest : Boundary rest) {c : Char} (hc : c ≠ ' ') :
    rest.head? ≠ some c :=
  fun h => hc (hrest c h)

/-! ## Texts that are read as a token -/

/-- The text is read as the token, whatever follows at a boundary. -/
def ReadsAs (text : String) (t : Token) : Prop :=
  ∃ c cs, text.toList = c :: cs ∧ isBlank c = false ∧
    ∀ rest, Boundary rest → scanToken c (cs ++ rest) = .ok (t, rest)

section Words

/-- Letters, digits and `_` begin no mark, no quoted text and no comment. -/
theorem scanToken_eq_scanWord {c : Char} (hc : isNameChar c = true) (cs : List Char) :
    scanToken c cs = scanWord c cs := by
  have hnot (d : Char) (hd : isNameChar d = false) : (c == d) = false := by
    rw [beq_eq_false_iff_ne]
    rintro rfl
    rw [hc] at hd
    cases hd
  have hparen : ['(', ')', ',', ';', '.'].contains c = false := by
    simp only [List.contains_cons, List.contains_nil]
    rw [hnot '(' rfl, hnot ')' rfl, hnot ',' rfl, hnot ';' rfl, hnot '.' rfl]
    rfl
  have hcomparison : ['=', '<', '>', '!'].contains c = false := by
    simp only [List.contains_cons, List.contains_nil]
    rw [hnot '=' rfl, hnot '<' rfl, hnot '>' rfl, hnot '!' rfl]
    rfl
  unfold scanToken
  rw [hnot '-' rfl, hnot '/' rfl, hparen, hcomparison, hnot '"' rfl, hnot '\'' rfl]
  rfl

/-- The characters of plain names are no white space. -/
theorem isBlank_of_isNameChar {c : Char} (hc : isNameChar c = true) : isBlank c = false :=
  of_isAscii (P := fun c => isNameChar c = true → isBlank c = false) (by decide +kernel)
    (isAscii_of_isNameChar hc) hc

theorem isWordChar_of_isNameChar {c : Char} (hc : isNameChar c = true) : isWordChar c = true := by
  rw [isWordChar, isAlphanumeric, if_pos (isAscii_of_isNameChar hc)]
  exact hc

/-- A plain name is read as a word, reserved or not, if no character of a word follows. -/
theorem scanToken_plainName {w : String} {c : Char} {cs rest : List Char}
    (hw : isPlainName w = true) (hlist : w.toList = c :: cs)
    (hrest : ∀ d ∈ rest.head?, isWordChar d = false) :
    isBlank c = false ∧ scanToken c (cs ++ rest) = .ok (wordToken w, rest) := by
  have hchars := (isNameChar_of_isPlainName hw).2
  rw [hlist] at hchars
  obtain ⟨hc, hcs⟩ := List.forall_mem_cons.1 hchars
  have hword : ∀ d ∈ cs, isWordChar d = true := fun d hd => isWordChar_of_isNameChar (hcs d hd)
  have hfirst : (c.isAlpha || c == '_') = true := by
    rw [isPlainName, hlist] at hw
    exact (Bool.and_eq_true_iff.1 hw).1
  obtain ⟨htake, hdrop⟩ := span_append hword hrest
  have hdigit : c.isDigit = false :=
    of_isAscii (P := fun c => (c.isAlpha || c == '_') = true → c.isDigit = false)
      (by decide +kernel) (isAscii_of_isNameChar hc) hfirst
  have hstart : (isAlphabetic c || c == '_') = true := by
    rw [isAlphabetic, if_pos (isAscii_of_isNameChar hc)]
    exact hfirst
  refine ⟨isBlank_of_isNameChar hc, ?_⟩
  rw [scanToken_eq_scanWord hc, scanWord, hdigit, if_neg Bool.false_ne_true, if_pos hstart, htake,
    hdrop, ← hlist, String.ofList_toList]

/-- A plain name is read as the word it is. -/
theorem readsAs_wordToken {w : String} (hw : isPlainName w = true) : ReadsAs w (wordToken w) := by
  obtain ⟨c, cs, hlist⟩ := List.exists_cons_of_ne_nil (isNameChar_of_isPlainName hw).1
  have hscan (rest : List Char) (hrest : ∀ d ∈ rest.head?, isWordChar d = false) :=
    scanToken_plainName hw hlist hrest
  refine ⟨c, cs, hlist, (hscan [] (by simp)).1, fun rest hrest => (hscan rest ?_).2⟩
  intro d hd
  rw [hrest d hd]
  decide +kernel

end Words

/-! ## Numbers -/

theorem isNameChar_of_isDigit {c : Char} (hc : c.isDigit = true) : isNameChar c = true := by
  simp [isNameChar, Char.isAlphanum, hc]

/-- Digits are read as an integer. -/
theorem readsAs_digits {digits : List Char} (hne : digits ≠ [])
    (hdigits : ∀ c ∈ digits, c.isDigit = true) :
    ReadsAs (String.ofList digits) (.integer (String.ofList digits)) := by
  cases digits with
  | nil => exact absurd rfl hne
  | cons c cs =>
    obtain ⟨hc, hcs⟩ := List.forall_mem_cons.1 hdigits
    refine ⟨c, cs, String.toList_ofList, isBlank_of_isNameChar (isNameChar_of_isDigit hc),
      fun rest hrest => ?_⟩
    obtain ⟨htake, hdrop⟩ := span_boundary hcs (by decide) hrest
    rw [scanToken_eq_scanWord (isNameChar_of_isDigit hc), scanWord, if_pos hc, htake, hdrop]

/-- Digits after a minus sign are read as an integer. -/
theorem readsAs_minus {digits : List Char} (hne : digits ≠ [])
    (hdigits : ∀ c ∈ digits, c.isDigit = true) :
    ReadsAs (String.ofList ('-' :: digits)) (.integer (String.ofList ('-' :: digits))) := by
  cases digits with
  | nil => exact absurd rfl hne
  | cons c cs =>
    refine ⟨'-', c :: cs, String.toList_ofList, by decide, fun rest hrest => ?_⟩
    obtain ⟨htake, hdrop⟩ := span_boundary hdigits (by decide) hrest
    have hminus : c ≠ '-' := by
      rintro rfl
      exact absurd (hdigits '-' List.mem_cons_self) (by decide)
    show scanMinus (c :: (cs ++ rest)) = _
    rw [scanMinus, if_pos (hdigits c List.mem_cons_self), ← List.cons_append, htake, hdrop]
    exact hminus

theorem readsAs_nat (n : Nat) : ReadsAs (toString n) (.integer (toString n)) := by
  rw [Nat.toString_eq_ofList_toDigits]
  exact readsAs_digits Nat.toDigits_ne_nil fun c hc => Nat.isDigit_of_mem_toDigits (by omega)
    (by omega) hc

/-- An integer is read as one token, the sign included. -/
theorem readsAs_int (n : Int) : ReadsAs (toString n) (.integer (toString n)) := by
  cases n with
  | ofNat n => exact readsAs_nat n
  | negSucc n =>
    have htext : toString (Int.negSucc n) = String.ofList ('-' :: Nat.toDigits 10 (n + 1)) := by
      show "-" ++ String.ofList (Nat.toDigits 10 (n + 1)) = _
      rw [String.ofList_cons]
      rfl
    rw [htext]
    exact readsAs_minus Nat.toDigits_ne_nil fun c hc => Nat.isDigit_of_mem_toDigits (by omega)
      (by omega) hc

/-! ## Quoted texts -/

/-- A string literal is read as it is written, up to the quote that ends it. -/
theorem takeString_doubling (cs : List Char) {rest : List Char} (hrest : rest.head? ≠ some '\'') :
    takeString (doubling '\'' cs ++ '\'' :: rest) = some (doubling '\'' cs ++ ['\''], rest) := by
  induction cs with
  | nil =>
    cases rest with
    | nil => rfl
    | cons c rest =>
      have hc : c ≠ '\'' := by simpa using hrest
      rw [doubling, List.flatMap_nil, List.nil_append, takeString]
      · rfl
      · intro cs _ h
        exact hc (List.cons.inj h).1
  | cons c cs ih =>
    by_cases hc : c = '\''
    · subst hc
      show takeString ('\'' :: '\'' :: (doubling '\'' cs ++ '\'' :: rest)) = _
      rw [takeString, ih]
      rfl
    · -- Neither case of `takeString` for a quote applies to a character that is none.
      have hplain : doubling '\'' (c :: cs) = c :: doubling '\'' cs := by simp [doubling, hc]
      rw [hplain, List.cons_append, takeString]
      · simp [hc, ih]
      · intro cs h
        exact absurd h hc

/-- A text in quotes, its own quotes doubled, is read as one string token. -/
theorem readsAs_string (s : String) : ReadsAs (enclose '\'' s) (.string (enclose '\'' s)) := by
  refine ⟨'\'', doubling '\'' s.toList ++ ['\''], String.toList_ofList, by decide, ?_⟩
  intro rest hrest
  have htake := takeString_doubling s.toList (hrest.head?_ne (by decide : '\'' ≠ ' '))
  rw [List.append_assoc, List.singleton_append]
  simp [scanToken, htake, enclose]

/-- A name in double quotes is read as it is, if no quote follows. -/
theorem scanToken_quotedName (n : String) {rest : List Char} (hrest : rest.head? ≠ some '"') :
    scanToken '"' (doubling '"' n.toList ++ ['"'] ++ rest) = .ok (.name n, rest) := by
  have htake := takeName_doubling n.toList hrest
  rw [List.append_assoc, List.singleton_append]
  simp [scanToken, htake]

/-- A text in double quotes is read as the name itself. -/
theorem readsAs_name (n : String) : ReadsAs (enclose '"' n) (.name n) := by
  refine ⟨'"', doubling '"' n.toList ++ ['"'], String.toList_ofList, by decide, ?_⟩
  intro rest hrest
  exact scanToken_quotedName n (hrest.head?_ne (by decide : '"' ≠ ' '))

/-! ## Marks -/

theorem readsAs_mark {c : Char} (hc : c ∈ ['(', ')', ',', ';', '.']) :
    ReadsAs c.toString (.punctuation c) := by
  have hother : isBlank c = false ∧ (c == '-') = false ∧ (c == '/') = false := by
    simp only [List.mem_cons, List.not_mem_nil, or_false] at hc
    rcases hc with rfl | rfl | rfl | rfl | rfl <;> decide
  obtain ⟨hblank, hminus, hslash⟩ := hother
  refine ⟨c, [], by simp, hblank, fun rest _ => ?_⟩
  have hmark : ['(', ')', ',', ';', '.'].contains c = true := by simpa using hc
  unfold scanToken
  rw [hminus, hslash, hmark]
  rfl

/-! ## Texts with spaces between them -/

/-- Scanning skips the white space, takes one token and goes on behind it. -/
theorem scan_of_scanToken {cs after rest : List Char} {c : Char} {t : Token}
    (hblank : cs.dropWhile isBlank = c :: after) (ht : scanToken c after = .ok (t, rest)) :
    scan cs = (t :: (scan rest).1, (scan rest).2) := by
  rw [scan]
  split
  · rename_i hnil
    rw [hblank] at hnil
    cases hnil
  · rename_i d more hcons
    rw [hblank] at hcons
    obtain ⟨rfl, rfl⟩ := List.cons.inj hcons
    split
    · rename_i cause herror
      rw [ht] at herror
      cases herror
    · rename_i u more hok
      rw [ht] at hok
      obtain ⟨rfl, rfl⟩ := Prod.mk.inj (Except.ok.inj hok)
      rfl

/-- A text that is read as a token is read wherever it stands, after white space or not. -/
theorem scan_of_readsAs {text : String} {t : Token} (h : ReadsAs text t) {before : List Char}
    (hbefore : ∀ c ∈ before, isBlank c = true) (rest : List Char) (hrest : Boundary rest) :
    scan (before ++ (text.toList ++ rest)) = (t :: (scan rest).1, (scan rest).2) := by
  obtain ⟨c, cs, htext, hc, hscan⟩ := h
  refine scan_of_scanToken ?_ (hscan rest hrest)
  rw [List.dropWhile_append_of_pos hbefore, htext, List.cons_append, List.dropWhile_cons, hc]
  rfl

/-- Texts with single spaces between them, after white space, are read as their tokens. -/
theorem scan_joined {pieces : List (String × Token)} (h : ∀ p ∈ pieces, ReadsAs p.1 p.2)
    (before : List Char) (hbefore : ∀ c ∈ before, isBlank c = true) :
    scan (before ++ [' '].intercalate (pieces.map fun p => p.1.toList)) =
      (pieces.map Prod.snd, none) := by
  induction pieces generalizing before with
  | nil =>
    have hnil : before.dropWhile isBlank = [] := by
      rw [← List.append_nil before, List.dropWhile_append_of_pos hbefore]
      rfl
    rw [List.map_nil, List.intercalate_nil, List.append_nil, scan]
    split
    · rfl
    · rename_i hcons
      rw [hnil] at hcons
      cases hcons
  | cons p pieces ih =>
    obtain ⟨hp, hpieces⟩ := List.forall_mem_cons.1 h
    cases pieces with
    | nil =>
      have hend := scan_of_readsAs hp hbefore [] (by simp [Boundary])
      have hnil : scan [] = ([], none) := ih hpieces [] (by simp)
      rw [hnil, List.append_nil] at hend
      rw [List.map_cons, List.map_nil, List.intercalate_singleton, hend]
      rfl
    | cons q pieces =>
      have hrest := ih hpieces [' '] (List.forall_mem_singleton.2 (by decide))
      rw [List.map_cons] at hrest
      rw [List.map_cons, List.map_cons, List.intercalate_cons_cons, List.append_assoc,
        scan_of_readsAs hp hbefore _ (by simp [Boundary]), hrest]
      rfl

/-- Texts that are each read as a token, joined by spaces, are read as those tokens. -/
theorem tokenize_joined {pieces : List (String × Token)} (h : ∀ p ∈ pieces, ReadsAs p.1 p.2) :
    tokenize (" ".intercalate (pieces.map Prod.fst)) = .ok (pieces.map Prod.snd) := by
  have hscan := scan_joined h [] (by simp)
  have hlist : (" ".intercalate (pieces.map Prod.fst)).toList =
      [' '].intercalate (pieces.map fun p => p.1.toList) := by
    rw [String.toList_intercalate, List.map_map]
    rfl
  rw [List.nil_append, ← hlist] at hscan
  simp only [tokenize, scanSource, hscan, Option.map_none]

end SqlCatalog

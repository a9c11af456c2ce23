import SqlCatalog.Proofs.Text.PlainNames
import SqlCatalog.Text.Letters
import SqlCatalog.Token.Lexer
import SqlCatalog.TypeName

/-!
# The case of ASCII letters

Texts are compared through several mappings: the full small and capital forms, and the small forms
of ASCII letters alone. None of them tells apart texts that differ in the case of ASCII letters.
For the full small forms this needs that the rule for a sigma at the end of a word does not ask for
the case of the letters around it.

## Main definitions

* `asciiLower` is a text with its ASCII letters in lower case.

## Main statements

* `lower_asciiLower` and `upper_asciiLower`: the full mappings.
* `sameIgnoringAsciiCase_iff`: what the small forms of ASCII letters alone tell apart.
-/

namespace SqlCatalog

/-! ## Characters -/

/-- Only the letters from A to Z are changed, so that what does not tell them apart from those from
a to z does not depend on the case of letters. -/
theorem apply_toLower {α : Type} {f : Char → α}
    (h : ∀ n : Fin 26, f (Char.ofNat (65 + n)).toLower = f (Char.ofNat (65 + n))) (c : Char) :
    f c.toLower = f c := by
  by_cases hupper : c.val ≥ 'A'.val ∧ c.val ≤ 'Z'.val
  · have hle : 65 ≤ c.toNat := UInt32.le_iff_toNat_le.1 hupper.1
    have hge : c.toNat ≤ 90 := UInt32.le_iff_toNat_le.1 hupper.2
    have hletter := h ⟨c.toNat - 65, by omega⟩
    have hn : 65 + (c.toNat - 65) = c.toNat := by omega
    rwa [hn, Char.ofNat_toNat] at hletter
  · have hsame : c.toLower = c := dif_neg hupper
    rw [hsame]

/-- Answers about a character that do not depend on the case of letters of ASCII. -/
structure CaseBlind where
  digit : Bool
  alpha : Bool
  alphabetic : Bool
  word : Bool
  name : Bool
  letter : Char
  lower : List Char
  upper : List Char
deriving DecidableEq

/-- The answers about a character. -/
def caseBlind (c : Char) : CaseBlind :=
  ⟨c.isDigit, c.isAlpha, isAlphabetic c, isWordChar c, isNameChar c, c.toLower, lowerChar c,
    upperChar c⟩

/-- A property that looks at the lower-case form of a character has one value for both cases. -/
theorem caseBlind_toLower (c : Char) : caseBlind c.toLower = caseBlind c :=
  apply_toLower (by decide +kernel) c

theorem isDigit_toLower (c : Char) : c.toLower.isDigit = c.isDigit :=
  congrArg CaseBlind.digit (caseBlind_toLower c)

theorem isAlpha_toLower (c : Char) : c.toLower.isAlpha = c.isAlpha :=
  congrArg CaseBlind.alpha (caseBlind_toLower c)

theorem isAlphabetic_toLower (c : Char) : isAlphabetic c.toLower = isAlphabetic c :=
  congrArg CaseBlind.alphabetic (caseBlind_toLower c)

theorem isWordChar_toLower (c : Char) : isWordChar c.toLower = isWordChar c :=
  congrArg CaseBlind.word (caseBlind_toLower c)

theorem isNameChar_toLower (c : Char) : isNameChar c.toLower = isNameChar c :=
  congrArg CaseBlind.name (caseBlind_toLower c)

theorem toLower_toLower (c : Char) : c.toLower.toLower = c.toLower :=
  congrArg CaseBlind.letter (caseBlind_toLower c)

/-- The Unicode lower-case form of an ASCII letter does not depend on its case. -/
theorem lowerChar_toLower (c : Char) : lowerChar c.toLower = lowerChar c :=
  congrArg CaseBlind.lower (caseBlind_toLower c)

theorem upperChar_toLower (c : Char) : upperChar c.toLower = upperChar c :=
  congrArg CaseBlind.upper (caseBlind_toLower c)

/-- The codes of the ASCII letters. -/
theorem toNat_of_isAlpha {c : Char} (h : c.isAlpha = true) :
    65 ≤ c.toNat ∧ c.toNat ≤ 90 ∨ 97 ≤ c.toNat ∧ c.toNat ≤ 122 := by
  rcases Bool.or_eq_true_iff.1 h with h | h
  · obtain ⟨hle, hge⟩ := of_decide_eq_true h
    exact .inl ⟨UInt32.le_iff_toNat_le.1 hle, UInt32.le_iff_toNat_le.1 hge⟩
  · obtain ⟨hle, hge⟩ := Bool.and_eq_true_iff.1 h
    exact .inr ⟨UInt32.le_iff_toNat_le.1 (of_decide_eq_true hle),
      UInt32.le_iff_toNat_le.1 (of_decide_eq_true hge)⟩

/-- Only letters are changed. -/
theorem toLower_of_not_isAlpha {c : Char} (h : c.isAlpha = false) : c.toLower = c := by
  refine dif_neg fun hupper => ?_
  have hletter : c.isAlpha = true := Bool.or_eq_true_iff.2 (.inl (decide_eq_true hupper))
  rw [h] at hletter
  cases hletter

/-- A character that is no letter has no other case. -/
theorem toLower_of_not_isAlphabetic {c : Char} (h : isAlphabetic c = false) : c.toLower = c := by
  refine toLower_of_not_isAlpha (Bool.eq_false_iff.2 fun hletter => ?_)
  have hascii : isAscii c = true := by
    have hn := toNat_of_isAlpha hletter
    exact decide_eq_true (by omega)
  rw [isAlphabetic, if_pos hascii, hletter] at h
  cases h

theorem toLower_of_isDigit {c : Char} (h : c.isDigit = true) : c.toLower = c := by
  refine toLower_of_not_isAlpha (Bool.eq_false_iff.2 fun hletter => ?_)
  have hn := toNat_of_isAlpha hletter
  have hge : c.toNat ≤ 57 :=
    UInt32.le_iff_toNat_le.1 (of_decide_eq_true (Bool.and_eq_true_iff.1 h).2)
  omega

/-- A mark is no letter, so no other character becomes one in lower case. -/
theorem toLower_beq {mark : Char} (h : mark.isAlpha = false) (c : Char) :
    (c.toLower == mark) = (c == mark) := by
  cases hc : c.isAlpha with
  | false => rw [toLower_of_not_isAlpha hc]
  | true =>
    have hne {d : Char} (hd : d.isAlpha = true) : d ≠ mark := by
      rintro rfl
      rw [h] at hd
      cases hd
    rw [beq_eq_false_iff_ne.2 (hne hc),
      beq_eq_false_iff_ne.2 (hne ((isAlpha_toLower c).trans hc))]

/-- Lower-casing makes no character into a mark that is no letter. -/
theorem toLower_ne {mark c : Char} (h : mark.isAlpha = false) (hc : c ≠ mark) :
    c.toLower ≠ mark :=
  beq_eq_false_iff_ne.1 ((toLower_beq h c).trans (beq_eq_false_iff_ne.2 hc))

section Marks

variable {marks : List Char} (h : (marks.all fun mark => !mark.isAlpha) = true) {c : Char}
include h

/-- Membership in a set of marks does not depend on the case of a character. -/
theorem contains_toLower : marks.contains c.toLower = marks.contains c := by
  rw [Bool.eq_iff_iff, List.contains_iff_mem, List.contains_iff_mem]
  constructor
  · intro hmem
    have hmark : c.toLower.isAlpha = false := by simpa using List.all_eq_true.1 h _ hmem
    rwa [toLower_of_not_isAlpha ((isAlpha_toLower c).symm.trans hmark)] at hmem
  · intro hmem
    have hmark : c.isAlpha = false := by simpa using List.all_eq_true.1 h _ hmem
    rwa [toLower_of_not_isAlpha hmark]

theorem toLower_of_contains (hc : marks.contains c = true) : c.toLower = c :=
  toLower_of_not_isAlpha (by simpa using List.all_eq_true.1 h c (List.contains_iff_mem.1 hc))

end Marks

/-! ## Sets of characters -/

/-- Whether no letter of ASCII is in the range. -/
def hasNoLetter (range : Nat × Nat) : Bool :=
  range.2 < 65 || 90 < range.1 && range.2 < 97 || 122 < range.1

/-- A set of ranges that holds no ASCII letter holds neither case of any. -/
theorem has_eq_false_of_isAlpha {ranges : CodeRanges} (h : ranges.all hasNoLetter = true) {c : Char}
    (hc : c.isAlpha = true) : ranges.has c = false := by
  rw [Bool.eq_false_iff, ne_eq, CodeRanges.has_iff]
  rintro ⟨range, hrange, hle, hge⟩
  have hletter := toNat_of_isAlpha hc
  have hrange := List.all_eq_true.1 h range hrange
  simp only [hasNoLetter, Bool.or_eq_true, Bool.and_eq_true, decide_eq_true_eq] at hrange
  omega

/-- Membership in a set of ranges without ASCII letters does not depend on the case of a
character. -/
theorem has_toLower {ranges : CodeRanges} (h : ranges.all hasNoLetter = true) (c : Char) :
    ranges.has c.toLower = ranges.has c := by
  cases hc : c.isAlpha with
  | false => rw [toLower_of_not_isAlpha hc]
  | true =>
    rw [has_eq_false_of_isAlpha h hc,
      has_eq_false_of_isAlpha h ((isAlpha_toLower c).trans hc)]

theorem isBlank_toLower (c : Char) : isBlank c.toLower = isBlank c :=
  has_toLower (by decide) c

theorem isCaseIgnorable_toLower (c : Char) :
    caseIgnorableRanges.has c.toLower = caseIgnorableRanges.has c :=
  has_toLower (by decide +kernel) c

/-- Every ASCII letter counts as cased, in the sense of the rule for a final sigma. -/
theorem isCased_of_isAlpha {c : Char} (h : c.isAlpha = true) : casedRanges.has c = true := by
  rw [CodeRanges.has_iff]
  rcases toNat_of_isAlpha h with hupper | hsmall
  · exact ⟨(65, 90), .head _, hupper⟩
  · exact ⟨(97, 122), .tail _ (.head _), hsmall⟩

theorem isCased_toLower (c : Char) : casedRanges.has c.toLower = casedRanges.has c := by
  cases hc : c.isAlpha with
  | false => rw [toLower_of_not_isAlpha hc]
  | true => rw [isCased_of_isAlpha hc, isCased_of_isAlpha ((isAlpha_toLower c).trans hc)]

/-! ## Runs of characters -/

/-- Dropping a run by a property that ignores case commutes with lower-casing. -/
theorem dropWhile_map_toLower {p : Char → Bool} (h : ∀ c, p c.toLower = p c) (cs : List Char) :
    (cs.map Char.toLower).dropWhile p = (cs.dropWhile p).map Char.toLower := by
  rw [List.dropWhile_map, show p ∘ Char.toLower = p from funext h]

/-! ## Texts -/

/-- The text with its ASCII letters in lower case. -/
def asciiLower (s : String) : String := String.ofList (s.toList.map Char.toLower)

/-- The ASCII lower case of a text changes it character by character. -/
theorem toList_asciiLower (s : String) : (asciiLower s).toList = s.toList.map Char.toLower :=
  String.toList_ofList

theorem asciiLower_append (a b : String) : asciiLower (a ++ b) = asciiLower a ++ asciiLower b := by
  rw [asciiLower, String.toList_append, List.map_append, String.ofList_append]
  rfl

theorem asciiLower_asciiLower (s : String) : asciiLower (asciiLower s) = asciiLower s := by
  rw [asciiLower, toList_asciiLower, List.map_map]
  exact congrArg (String.ofList <| List.map · s.toList) (funext toLower_toLower)

/-- Texts are equal up to the case of ASCII letters if they are the same in lower case. -/
theorem sameIgnoringAsciiCase_iff {a b : String} :
    sameIgnoringAsciiCase a b = true ↔ asciiLower a = asciiLower b := by
  rw [sameIgnoringAsciiCase, beq_iff_eq, asciiLower, asciiLower, String.ofList_inj]

/-- Comparing without regard to ASCII case does not see the case of either side. -/
theorem sameIgnoringAsciiCase_asciiLower (a b : String) :
    sameIgnoringAsciiCase (asciiLower a) b = sameIgnoringAsciiCase a b := by
  rw [Bool.eq_iff_iff, sameIgnoringAsciiCase_iff, asciiLower_asciiLower, sameIgnoringAsciiCase_iff]

/-- Whether a cased letter comes next does not depend on the case of the ASCII letters. -/
theorem meetsCased_map_toLower (cs : List Char) :
    meetsCased (cs.map Char.toLower) = meetsCased cs := by
  rw [meetsCased, meetsCased, dropWhile_map_toLower isCaseIgnorable_toLower]
  cases cs.dropWhile caseIgnorableRanges.has with
  | nil => rfl
  | cons c cs => exact isCased_toLower c

/-- The Unicode lower case of a text, sigmas included, does not depend on the case of its ASCII
letters. -/
theorem lowerCharsFrom_map_toLower (before cs : List Char) :
    lowerCharsFrom (before.map Char.toLower) (cs.map Char.toLower) = lowerCharsFrom before cs := by
  induction cs generalizing before with
  | nil => rfl
  | cons c cs ih =>
    have hsigma : (c.toLower == 'Σ') = (c == 'Σ') := toLower_beq rfl c
    have hrest := ih (c :: before)
    rw [List.map_cons] at hrest
    rw [List.map_cons, lowerCharsFrom, lowerCharsFrom, hsigma, isFinalSigma, isFinalSigma,
      meetsCased_map_toLower, meetsCased_map_toLower, lowerChar_toLower, hrest]

/-- The full lower case does not depend on the case of ASCII letters. -/
theorem lower_asciiLower (s : String) : lower (asciiLower s) = lower s := by
  rw [lower, toList_asciiLower]
  exact congrArg String.ofList (lowerCharsFrom_map_toLower [] s.toList)

/-- The full upper case does not depend on the case of ASCII letters. -/
theorem upper_asciiLower (s : String) : upper (asciiLower s) = upper s := by
  rw [upper, toList_asciiLower, List.flatMap_map]
  exact congrArg (String.ofList <| List.flatMap · s.toList) (funext upperChar_toLower)

theorem sameIgnoringCase_asciiLower (a b : String) :
    sameIgnoringCase (asciiLower a) (asciiLower b) = sameIgnoringCase a b := by
  rw [sameIgnoringCase, lower_asciiLower, lower_asciiLower, sameIgnoringCase]

/-- Whether a type is known does not depend on the case it is written in. -/
theorem isKnownType_asciiLower (name : String) :
    isKnownType (asciiLower name) = isKnownType name := by
  rw [isKnownType, lower_asciiLower, isKnownType]

theorem typeFamily_asciiLower (d : Dialect) (name : String) :
    typeFamily d (asciiLower name) = typeFamily d name := by
  rw [typeFamily, bareTypeName, lower_asciiLower, typeFamily, bareTypeName]

theorem identifierKey_asciiLower (d : Dialect) (name : String) :
    d.identifierKey (asciiLower name) = d.identifierKey name := by
  rw [Dialect.identifierKey, lower_asciiLower, Dialect.identifierKey]

theorem sameName_asciiLower (d : Dialect) (a b : String) :
    d.sameName (asciiLower a) (asciiLower b) = d.sameName a b := by
  rw [Dialect.sameName, identifierKey_asciiLower, identifierKey_asciiLower, Dialect.sameName]

theorem trimEnd_asciiLower (s : String) : trimEnd (asciiLower s) = asciiLower (trimEnd s) := by
  rw [trimEnd, trimEndChars, toList_asciiLower, ← List.map_reverse,
    dropWhile_map_toLower isBlank_toLower, ← List.map_reverse, asciiLower, trimEnd,
    String.toList_ofList, trimEndChars]

end SqlCatalog

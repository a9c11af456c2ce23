import SqlCatalog.Proofs.Lists
import SqlCatalog.Proofs.Text.SmallForms

/-!
# The words of type names

A type name is known if its lower case is listed, so it could be written in any characters whose
lower case is that of the listed ones. Besides the ASCII letters themselves only the Kelvin sign
has an ASCII letter as its lower case, and no known type has a `k` in it: a known type name is
made of ASCII characters, and its words are those of a listed name but for the case of letters.

## Main definitions

* `IsAsciiText` says that a text is made of ASCII characters.
* `typeWords` are the words of a type name, and `IsTypeName` says what is true of all that are
  listed.

## Main statements

* `exists_lowerChar`: lower case makes no letter of a known type out of anything else.
* `isAsciiText_of_isKnownType`: a known type name is in ASCII.
* `typeWords_cases`: what the words of a known type name can be.
-/

namespace SqlCatalog

/-! ## ASCII texts -/

/-- Whether the text is made of ASCII characters. -/
def IsAsciiText (s : String) : Prop := ∀ c ∈ s.toList, isAscii c = true

theorem IsAsciiText.append {a b : String} (ha : IsAsciiText a) (hb : IsAsciiText b) :
    IsAsciiText (a ++ b) := by
  intro c hc
  rw [String.toList_append, List.mem_append] at hc
  exact hc.elim (ha c) (hb c)

theorem IsAsciiText.toList_lower {s : String} (h : IsAsciiText s) :
    (lower s).toList = s.toList.map Char.toLower := by
  rw [SqlCatalog.toList_lower, ← List.append_nil s.toList, lowerCharsFrom_append h]
  simp [lowerCharsFrom]

/-- The lower case of ASCII texts splits over an append. -/
theorem IsAsciiText.lower_append {a b : String} (ha : IsAsciiText a) (hb : IsAsciiText b) :
    lower (a ++ b) = lower a ++ lower b := by
  rw [← String.toList_inj, (ha.append hb).toList_lower, String.toList_append, String.toList_append,
    ha.toList_lower, hb.toList_lower, List.map_append]

/-- The upper case of an ASCII text does not depend on the case it is written in. -/
theorem IsAsciiText.upper_lower {s : String} (h : IsAsciiText s) : upper (lower s) = upper s := by
  have hlower : lower s = asciiLower s := by
    rw [← String.toList_inj, h.toList_lower, toList_asciiLower]
  rw [hlower, upper_asciiLower]

theorem IsAsciiText.isPlainName_lower {s : String} (h : IsAsciiText s) :
    isPlainName (lower s) = isPlainName s := by
  unfold isPlainName
  rw [h.toList_lower]
  cases hs : s.toList with
  | nil => rfl
  | cons c cs =>
    rw [IsAsciiText, hs] at h
    obtain ⟨hc, hcs⟩ := List.forall_mem_cons.1 h
    have hrest : (cs.map Char.toLower).all isNameChar = cs.all isNameChar := by
      rw [List.all_map]
      exact congrArg cs.all (funext isNameChar_toLower)
    show ((c.toLower.isAlpha || c.toLower == '_') && (cs.map Char.toLower).all isNameChar) =
      ((c.isAlpha || c == '_') && cs.all isNameChar)
    rw [isAlpha_toLower, toLower_beq rfl, hrest]

/-! ## Where lower case gives ASCII -/

/-- Whether `c` is a character of a known type name, or any other of the kind. -/
def isTypeChar (c : Char) : Bool := isAscii c && c != 'k' && c != '\x00'

/-- No character outside ASCII becomes a character of a type's name through a run. -/
theorem isTypeChar_image? {run : CaseRun} (hrun : run ∈ lowerRuns) {c d : Char}
    (h : run.image? c = some d) : isTypeChar d = false := by
  rcases isAscii_image? hrun h with hbeyond | rfl
  · rw [isTypeChar, hbeyond]
    rfl
  · decide

/-- Beyond ASCII, lower case gives a character that is in no known type name. -/
theorem exists_lowerChar {c : Char} (hc : isAscii c = false) :
    ∃ d ∈ lowerChar c, isTypeChar d = false := by
  rw [lowerChar, hc, if_neg Bool.false_ne_true]
  split
  · exact ⟨'\u0307', by simp, by decide⟩
  · cases hfind : lowerRuns.findSome? (·.image? c) with
    | none => exact ⟨c, by simp, by rw [isTypeChar, hc]; rfl⟩
    | some d =>
      obtain ⟨run, hrun, himage⟩ := List.exists_of_findSome?_eq_some hfind
      exact ⟨d, by simp, isTypeChar_image? hrun himage⟩

/-- If lower case gives characters of types' names only, the text was ASCII to begin with. -/
theorem isAscii_of_lowerCharsFrom {before cs : List Char}
    (h : ∀ d ∈ lowerCharsFrom before cs, isTypeChar d = true) : ∀ c ∈ cs, isAscii c = true := by
  induction cs generalizing before with
  | nil => simp
  | cons c cs ih =>
    rw [lowerCharsFrom, List.forall_mem_append] at h
    obtain ⟨hfirst, hrest⟩ := h
    refine List.forall_mem_cons.2 ⟨?_, ih hrest⟩
    cases hc : isAscii c with
    | true => rfl
    | false =>
      split at hfirst
      · exact absurd (hfirst 'ς' List.mem_cons_self) (by decide)
      · obtain ⟨d, hd, hnot⟩ := exists_lowerChar hc
        rw [hfirst d hd] at hnot
        cases hnot

/-! ## Words -/

/-- The words of a type name. -/
def typeWords (name : String) : List String := (name.toList.splitOn ' ').map String.ofList

/-- Whether a listed name has the characters and the words of a known type name. -/
def IsTypeName (name : String) : Prop :=
  name.toList.all isTypeChar = true ∧
    (∀ w ∈ typeWords name, isPlainName w = true ∧ upper w ∉ reservedWords) ∧
      (typeWords name = [name] ∨
        (typeWords name = ["double", "precision"] ∨ typeWords name = ["character", "varying"]) ∨
          ∃ a ∈ ["timestamp", "time"], ∃ b ∈ ["with", "without"],
            typeWords name = [a, b, "time", "zone"])

instance (name : String) : Decidable (IsTypeName name) := inferInstanceAs (Decidable (_ ∧ _))

/-- The texts of the listed names are gone through once, for all that they say. -/
theorem isTypeName_of_mem : ∀ name ∈ knownTypes, IsTypeName name := by decide +kernel

/-- The lower case of a known type is one of the names in the list of types. -/
theorem isTypeName_lower {name : String} (h : isKnownType name = true) : IsTypeName (lower name) :=
  isTypeName_of_mem _ (List.contains_iff_mem.1 h)

/-- A known type name is made of ASCII characters. -/
theorem isAsciiText_of_isKnownType {name : String} (h : isKnownType name = true) :
    IsAsciiText name := by
  have hchars := (isTypeName_lower h).1
  rw [List.all_eq_true, toList_lower] at hchars
  exact isAscii_of_lowerCharsFrom hchars

/-- Lower-casing a text lower-cases each of its words. -/
theorem splitOn_map_toLower (cs : List Char) :
    (cs.map Char.toLower).splitOn ' ' = (cs.splitOn ' ').map (List.map Char.toLower) := by
  induction cs with
  | nil => rfl
  | cons c cs ih =>
    have hspace : (c.toLower == ' ') = (c == ' ') := toLower_beq rfl c
    obtain ⟨w, ws, hws⟩ := List.exists_cons_of_ne_nil (List.splitOn_ne_nil ' ' cs)
    rw [List.map_cons, List.splitOn_cons_eq_if_modifyHead, List.splitOn_cons_eq_if_modifyHead,
      hspace, ih, hws]
    split <;> rfl

/-- The name of a type is its words with single spaces between them. -/
theorem intercalate_typeWords (name : String) : " ".intercalate (typeWords name) = name := by
  rw [← String.toList_inj, String.toList_intercalate, typeWords, List.map_map]
  have hback : String.toList ∘ String.ofList = id := funext fun cs => String.toList_ofList
  rw [hback, List.map_id]
  exact List.intercalate_splitOn ' '

/-- A name without spaces is one word. -/
theorem typeWords_eq_singleton {name : String} (h : ' ' ∉ name.toList) :
    typeWords name = [name] := by
  rw [typeWords, List.splitOn_eq_singleton h, List.map_singleton, String.ofList_toList]

theorem isAsciiText_of_mem_typeWords {name : String} (h : IsAsciiText name) :
    ∀ w ∈ typeWords name, IsAsciiText w := by
  intro w hw c hc
  obtain ⟨cs, hcs, rfl⟩ := List.mem_map.1 hw
  rw [String.toList_ofList] at hc
  exact h c (subset_of_mem_splitOn hcs hc)

/-- The words of a name in lower case are its words, each in lower case. -/
theorem typeWords_lower {name : String} (h : IsAsciiText name) :
    typeWords (lower name) = (typeWords name).map lower := by
  have hascii := isAsciiText_of_mem_typeWords h
  rw [typeWords, h.toList_lower, splitOn_map_toLower, List.map_map]
  rw [typeWords] at hascii ⊢
  rw [List.map_map]
  refine List.map_congr_left fun w hw => ?_
  have hw := hascii _ (List.mem_map_of_mem hw)
  rw [Function.comp, Function.comp, ← String.toList_inj, hw.toList_lower]
  simp

/-! ## The words of known type names -/

/-- Words of known type names are plain names and not reserved. -/
theorem isPlainName_of_mem_typeWords {name : String} (h : isKnownType name = true) :
    ∀ a ∈ typeWords name, isPlainName a = true ∧ upper a ∉ reservedWords := by
  intro a ha
  have hascii := isAsciiText_of_isKnownType h
  have hword := isAsciiText_of_mem_typeWords hascii a ha
  rw [← hword.isPlainName_lower, ← hword.upper_lower]
  refine (isTypeName_lower h).2.1 (lower a) ?_
  rw [typeWords_lower hascii]
  exact List.mem_map_of_mem ha

/-- A known type name is one word, or it is spelled with two or four certain words. -/
theorem typeWords_cases {name : String} (h : isKnownType name = true) :
    typeWords name = [name] ∨
      (∃ a b, typeWords name = [a, b] ∧
        (lower a = "double" ∧ lower b = "precision" ∨
          lower a = "character" ∧ lower b = "varying")) ∨
      ∃ a b c d, typeWords name = [a, b, c, d] ∧ (lower a = "timestamp" ∨ lower a = "time") ∧
        (lower b = "with" ∨ lower b = "without") ∧ lower c = "time" ∧ lower d = "zone" := by
  have hname := intercalate_typeWords name
  have hlower := typeWords_lower (isAsciiText_of_isKnownType h)
  rcases (isTypeName_lower h).2.2 with hone | htwo | ⟨x, hx, y, hy, hfour⟩
  · rw [hlower, List.map_eq_singleton_iff] at hone
    obtain ⟨a, ha, -⟩ := hone
    rw [ha, String.intercalate_singleton] at hname
    exact .inl (ha.trans (by rw [hname]))
  · rw [hlower] at htwo
    simp only [List.map_eq_cons_iff, List.map_eq_nil_iff] at htwo
    rcases htwo with ⟨a, _, ha, hx, b, _, rfl, hy, rfl⟩ | ⟨a, _, ha, hx, b, _, rfl, hy, rfl⟩
    · exact .inr (.inl ⟨a, b, ha, .inl ⟨hx, hy⟩⟩)
    · exact .inr (.inl ⟨a, b, ha, .inr ⟨hx, hy⟩⟩)
  · rw [hlower] at hfour
    simp only [List.map_eq_cons_iff, List.map_eq_nil_iff] at hfour
    obtain ⟨a, _, ha, rfl, b, _, rfl, rfl, c, _, rfl, hc, d, _, rfl, hd, rfl⟩ := hfour
    exact .inr (.inr ⟨a, b, c, d, ha, by simpa using hx, by simpa using hy, hc, hd⟩)

end SqlCatalog

import SqlCatalog.Dialect

/-!
# Plain names in lower case

A plain name is made of ASCII characters, so that its lower case is worked out one character at a
time, whatever stands around it.

## Main definitions

* `isNameChar` are the characters of plain names.

## Main statements

* `lowerCharsFrom_append`: ASCII characters are lowered one by one.
* `of_isAscii`: what holds of 128 characters holds of every character of ASCII.
-/

namespace SqlCatalog

/-- Whether a plain name may go on with `c`. -/
def isNameChar (c : Char) : Bool := c.isAlphanum || c == '_' || c == '$'

theorem isAscii_of_isNameChar {c : Char} (h : isNameChar c = true) : isAscii c = true := by
  have below {last : Char} (hc : c.val ≤ last.val) (hlast : last.toNat < 128) :
      isAscii c = true :=
    decide_eq_true (Nat.lt_of_le_of_lt (UInt32.le_iff_toNat_le.1 hc) hlast)
  rw [isNameChar, Bool.or_eq_true, Bool.or_eq_true, beq_iff_eq, beq_iff_eq] at h
  rcases h with (h | rfl) | rfl
  · change (c.isUpper || c.isLower || c.isDigit) = true at h
    rw [Bool.or_eq_true, Bool.or_eq_true] at h
    rcases h with (upper | small) | digit
    · exact below (of_decide_eq_true upper).2 (by decide)
    · exact below (of_decide_eq_true (Bool.and_eq_true_iff.1 small).2) (by decide)
    · exact below (of_decide_eq_true (Bool.and_eq_true_iff.1 digit).2) (by decide)
  · decide
  · decide

/-- What holds of the 128 characters of ASCII holds of a character that is one of them. -/
theorem of_isAscii {P : Char → Prop} (h : ∀ n : Fin 128, P (Char.ofNat n)) {c : Char}
    (hc : isAscii c = true) : P c := by
  have hlt : c.toNat < 128 := by simpa [isAscii] using hc
  have hn := h ⟨c.toNat, hlt⟩
  rwa [Char.ofNat_toNat] at hn

/-- A plain name is not empty and made of the characters of names. -/
theorem isNameChar_of_isPlainName {name : String} (h : isPlainName name = true) :
    name.toList ≠ [] ∧ ∀ c ∈ name.toList, isNameChar c = true := by
  unfold isPlainName at h
  split at h
  · cases h
  · rename_i c cs hname
    rw [Bool.and_eq_true, List.all_eq_true] at h
    obtain ⟨hfirst, hrest⟩ := h
    rw [hname]
    refine ⟨List.cons_ne_nil _ _, ?_⟩
    intro d hd
    rcases List.mem_cons.1 hd with rfl | hd
    · rw [Bool.or_eq_true] at hfirst
      rcases hfirst with hfirst | hfirst <;> simp [isNameChar, Char.isAlphanum, hfirst]
    · exact hrest d hd

/-- Characters of ASCII are lowered one by one, whatever stands before and after them. -/
theorem lowerCharsFrom_append {cs : List Char} (hcs : ∀ c ∈ cs, isAscii c = true)
    (before rest : List Char) :
    lowerCharsFrom before (cs ++ rest) =
      cs.map Char.toLower ++ lowerCharsFrom (cs.reverse ++ before) rest := by
  induction cs generalizing before with
  | nil => rfl
  | cons c cs ih =>
    obtain ⟨hc, hcs⟩ := List.forall_mem_cons.1 hcs
    have hsigma : (c == 'Σ') = false := by
      rw [beq_eq_false_iff_ne]
      rintro rfl
      exact absurd hc (by decide)
    have hlower : lowerChar c = [c.toLower] := by rw [lowerChar, if_pos hc]
    rw [List.cons_append, lowerCharsFrom, hsigma, hlower, ih hcs]
    simp

theorem toList_lower (name : String) : (lower name).toList = lowerCharsFrom [] name.toList := by
  rw [lower, String.toList_ofList]

/-- A plain name is lower-cased letter by letter, with no rule for sigmas. -/
theorem toList_lower_of_isPlainName {name : String} (h : isPlainName name = true) :
    (lower name).toList = name.toList.map Char.toLower := by
  have hascii : ∀ c ∈ name.toList, isAscii c = true := fun c hc =>
    isAscii_of_isNameChar ((isNameChar_of_isPlainName h).2 c hc)
  rw [toList_lower, ← List.append_nil name.toList, lowerCharsFrom_append hascii]
  simp [lowerCharsFrom]

end SqlCatalog

import SqlCatalog.Proofs.Text.LetterCase

/-!
# Lower case, part by part

The small form of a sigma depends on what stands around it, so that the lower case of a text is not
in general put together from those of its parts. It is where the parts meet at a border: a mark
that has no letter case and that the rule for a sigma does not pass over either.

## Main definitions

* `isBorder` are the marks at which a text can be divided.

## Main statements

* `lowerCharsFrom_append_of_meetsCased`: a part is lowered alone if no cased letter follows.
* `lowerCharsFrom_append_border`: a text is lowered part by part around a border.
-/

namespace SqlCatalog

variable {before cs rest : List Char}

/-! ## What the rule for a sigma meets -/

/-- If no cased letter is met in what follows, none is met beyond the end of a text. -/
theorem meetsCased_append (h : meetsCased rest = false) (cs : List Char) :
    meetsCased (cs ++ rest) = meetsCased cs := by
  rw [meetsCased, meetsCased, List.dropWhile_append]
  cases hcs : cs.dropWhile caseIgnorableRanges.has with
  | nil => exact h
  | cons c cs => rfl

/-- Lower-casing splits over an append where no cased letter follows the seam: what stands before
the seam is looked back at, but nothing behind it decides a final sigma. -/
theorem lowerCharsFrom_append_of_meetsCased (h : meetsCased rest = false)
    (before cs : List Char) :
    lowerCharsFrom before (cs ++ rest) =
      lowerCharsFrom before cs ++ lowerCharsFrom (cs.reverse ++ before) rest := by
  induction cs generalizing before with
  | nil => rfl
  | cons c cs ih =>
    rw [List.cons_append, lowerCharsFrom, lowerCharsFrom, isFinalSigma, isFinalSigma,
      meetsCased_append h, ih]
    simp only [List.reverse_cons, List.append_assoc, List.cons_append, List.nil_append]

/-- What was read before is forgotten if no cased letter is met there. -/
theorem lowerCharsFrom_append_before (h : meetsCased before = false) (read cs : List Char) :
    lowerCharsFrom (read ++ before) cs = lowerCharsFrom read cs := by
  induction cs generalizing read with
  | nil => rfl
  | cons c cs ih =>
    rw [lowerCharsFrom, lowerCharsFrom, isFinalSigma, isFinalSigma, meetsCased_append h,
      ← List.cons_append, ih]

/-! ## Borders -/

/-- Whether a character of ASCII has no letter case and is not passed over either. -/
def isBorder (c : Char) : Bool :=
  isAscii c && !caseIgnorableRanges.has c && !casedRanges.has c

section Borders

variable {c : Char} (hc : isBorder c = true)
include hc

theorem isAscii_of_isBorder : isAscii c = true := by
  simp only [isBorder, Bool.and_eq_true] at hc
  exact hc.1.1

/-- A border ends the search for a cased letter. -/
theorem meetsCased_border (rest : List Char) : meetsCased (c :: rest) = false := by
  simp only [isBorder, Bool.and_eq_true, Bool.not_eq_true'] at hc
  rw [meetsCased, List.dropWhile_cons_of_neg (by simp [hc.1.2])]
  exact hc.2

theorem toLower_border : c.toLower = c := by
  refine toLower_of_not_isAlpha (Bool.eq_false_iff.2 fun hletter => ?_)
  simp only [isBorder, Bool.and_eq_true, Bool.not_eq_true', isCased_of_isAlpha hletter] at hc
  cases hc.2

/-- Around a border a text is lowered part by part. -/
theorem lowerCharsFrom_append_border (before cs rest : List Char) :
    lowerCharsFrom before (cs ++ c :: rest) =
      lowerCharsFrom before cs ++ c :: lowerCharsFrom [] rest := by
  have hborder : ∀ d ∈ [c], isAscii d = true := by
    simpa using isAscii_of_isBorder hc
  have hafter (read : List Char) : lowerCharsFrom (c :: read) rest = lowerCharsFrom [] rest :=
    lowerCharsFrom_append_before (meetsCased_border hc read) [] rest
  rw [lowerCharsFrom_append_of_meetsCased (meetsCased_border hc rest), ← List.singleton_append,
    lowerCharsFrom_append hborder, List.reverse_singleton, List.singleton_append, hafter,
    List.map_singleton, toLower_border hc, List.singleton_append]

end Borders

end SqlCatalog

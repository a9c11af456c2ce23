import SqlCatalog.Definition.Literal
import SqlCatalog.Proofs.Token.Phrases

/-!
# Literals read back

The spelling of a value is read back as that value: an integer in decimal digits, of 64 bits or,
for the length of a type, of 32, and a text between single quotes with the quotes inside it
doubled. Floating-point numbers are not read at all.

## Main statements

* `readInt64?_toString`, `readUInt32?_toString`, `unquote?_enclose`.
* `literal?_token`: the token of a value is a literal of that value.
-/

namespace SqlCatalog

/-! ## Numbers -/

/-- The decimal digits of a number are read as the number. -/
theorem decimal?_toDigits (n : Nat) : decimal? (Nat.toDigits 10 n) = some n := by
  have hdigits : (Nat.toDigits 10 n).all Char.isDigit = true := by
    rw [List.all_eq_true]
    intro c hc
    exact Nat.isDigit_of_mem_toDigits (by omega) (by omega) hc
  have hne : (Nat.toDigits 10 n).isEmpty = false := by simp [Nat.toDigits_ne_nil]
  rw [decimal?, hne, hdigits, ← Nat.ofDigitChars_eq_foldl, Nat.ofDigitChars_ten_toDigits]
  rfl

/-- Digits do not begin with a sign. -/
theorem toDigits_cases (n : Nat) :
    ∃ c cs, Nat.toDigits 10 n = c :: cs ∧ c ≠ '+' ∧ c ≠ '-' := by
  obtain ⟨c, cs, hcs⟩ := List.exists_cons_of_ne_nil (Nat.toDigits_ne_nil (n := n) (b := 10))
  have hc : c.isDigit = true :=
    Nat.isDigit_of_mem_toDigits (by omega) (by omega) (hcs ▸ List.mem_cons_self)
  refine ⟨c, cs, hcs, ?_, ?_⟩ <;> rintro rfl <;> exact absurd hc (by decide)

theorem readUInt32?_toString (n : UInt32) : readUInt32? (toString n.toNat) = some n := by
  obtain ⟨c, cs, hcs, hplus, -⟩ := toDigits_cases n.toNat
  have hdecimal := decimal?_toDigits n.toNat
  have hlt : n.toNat < UInt32.size := n.toNat_lt_size
  rw [readUInt32?, Nat.toString_eq_ofList_toDigits, String.toList_ofList]
  split
  · rename_i hsign
    rw [hcs] at hsign
    exact absurd (List.cons.inj hsign).1 hplus
  · simp [hdecimal, hlt]

/-- Digits, with a minus sign or without, are read as the integer of 64 bits that they spell. -/
theorem readInt64?_toString (n : Int64) : readInt64? (toString n.toInt) = some n := by
  have hfits : (decide (Int64.minValue.toInt ≤ n.toInt) &&
      decide (n.toInt ≤ Int64.maxValue.toInt)) = true := by
    rw [Bool.and_eq_true, decide_eq_true_eq, decide_eq_true_eq]
    exact ⟨n.minValue_le_toInt, n.toInt_le⟩
  have hback : Int64.ofInt n.toInt = n := Int64.ofInt_toInt n
  cases hn : n.toInt with
  | ofNat m =>
    obtain ⟨c, cs, hcs, hplus, hminus⟩ := toDigits_cases m
    have htext : (toString (Int.ofNat m)).toList = Nat.toDigits 10 m := String.toList_ofList
    rw [hn] at hfits hback
    rw [readInt64?, htext]
    split
    · rename_i hsign
      rw [hcs] at hsign
      exact absurd (List.cons.inj hsign).1 hplus
    · rename_i hsign
      rw [hcs] at hsign
      exact absurd (List.cons.inj hsign).1 hminus
    · rw [decimal?_toDigits, Option.bind_some]
      exact (if_pos hfits).trans (congrArg some hback)
  | negSucc m =>
    have htext : (toString (Int.negSucc m)).toList = '-' :: Nat.toDigits 10 (m + 1) := by
      show ("-" ++ String.ofList (Nat.toDigits 10 (m + 1))).toList = _
      simp only [String.toList_append, String.toList_ofList]
      rfl
    have hneg : -((m + 1 : Nat) : Int) = Int.negSucc m := rfl
    rw [hn] at hfits hback
    rw [readInt64?, htext]
    show (decimal? (Nat.toDigits 10 (m + 1))).bind _ = _
    rw [decimal?_toDigits, Option.bind_some, hneg]
    exact (if_pos hfits).trans (congrArg some hback)

/-! ## Texts -/

/-- Halving the quotes of a text undoes doubling them. -/
theorem halving_doubling (cs : List Char) : halving (doubling '\'' cs) = cs := by
  induction cs with
  | nil => rfl
  | cons c cs ih =>
    by_cases hc : c = '\''
    · subst hc
      show halving ('\'' :: '\'' :: doubling '\'' cs) = _
      rw [halving, ih]
    · have hplain : doubling '\'' (c :: cs) = c :: doubling '\'' cs := by simp [doubling, hc]
      rw [hplain, halving, ih]
      intro _ h
      exact absurd h hc

/-- A text in quotes is read as the text. -/
theorem unquote?_enclose (s : String) : unquote? (enclose '\'' s) = some s := by
  simp [unquote?, enclose, halving_doubling]

/-! ## Tokens -/

/-- The spelling of a value is a literal of that value. -/
theorem literal?_token {v : Value} (h : v.isFloat = false) : literal? v.token = some (.ok v) := by
  cases v with
  | null => rfl
  | bool b => cases b <;> rfl
  | int n => simp only [Value.token, Value.literal, literal?, readInt64?_toString]
  | float x => cases h
  | text s =>
    simp only [Value.token, Value.literal, literal?, readString, unquote?_enclose]
    rfl

end SqlCatalog

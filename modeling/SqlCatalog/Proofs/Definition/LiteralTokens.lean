import Mathlib.Data.Nat.Digits.Defs
import SqlCatalog.Proofs.Definition.Literals
import SqlCatalog.Proofs.Token.NormalForm

/-!
# Literals and their tokens

A value is spelled as one token, which is a literal of that value. The other way round, every string
literal that the lexer reads is the spelling of the text that it stands for, so that quotes are
doubled and halved without loss, and every integer that it reads is a numeral, whose number is read
if it has a place among the integers of 64 bits.

## Main definitions

* `placeValue` is the number that digits stand for.
* `IsNumeral` says which integer a text is a numeral of.

## Main statements

* `literal?_of_isNumeral`: which numerals are literals, and of which integers.
* `isLexical_of_mem_scan`: the shapes of the tokens before the first fault of a source.
* `literals_readBack`: values through their tokens, and tokens through their values.
-/

namespace SqlCatalog

/-! ## Numerals -/

/-- The number that decimal digits stand for, that of the ones being the last. -/
def placeValue (digits : List Char) : Nat :=
  Nat.ofDigits 10 (digits.reverse.map fun c => c.toNat - '0'.toNat)

/-- The characters are decimal digits, one at least. -/
def AreDigits (cs : List Char) : Prop := cs ≠ [] ∧ ∀ c ∈ cs, c.isDigit = true

/-- The text is a numeral of the integer: digits, with a sign in front of them or without. -/
inductive IsNumeral : String → Int → Prop
  | plain {digits : List Char} (h : AreDigits digits) :
      IsNumeral (String.ofList digits) (placeValue digits)
  | plus {digits : List Char} (h : AreDigits digits) :
      IsNumeral (String.ofList ('+' :: digits)) (placeValue digits)
  | minus {digits : List Char} (h : AreDigits digits) :
      IsNumeral (String.ofList ('-' :: digits)) (-placeValue digits)

section Numerals

variable {cs : List Char} {raw : String} {n : Int} {m : Int64}

/-- Reading digits from the left gives their value by places. -/
theorem foldl_eq_placeValue (cs : List Char) :
    cs.foldl (fun n c => 10 * n + (c.toNat - '0'.toNat)) 0 = placeValue cs := by
  rw [placeValue, Nat.ofDigits_eq_foldr, List.foldr_map, List.foldr_reverse]
  simp only [Nat.cast_id, Nat.add_comm]

/-- A text is read as a natural number exactly when it is made of digits with that value. -/
theorem decimal?_eq_some_iff {n : Nat} :
    decimal? cs = some n ↔ AreDigits cs ∧ placeValue cs = n := by
  have hcond : (cs.isEmpty || !cs.all Char.isDigit) = true ↔ ¬ AreDigits cs := by
    simp [AreDigits, -not_and, Classical.not_and_iff_not_or_not]
  rw [decimal?, foldl_eq_placeValue]
  split
  · rename_i h
    simp [hcond.1 h]
  · rename_i h
    simp [not_not.1 (mt hcond.2 h)]

/-- Digits do not begin with a sign. -/
theorem AreDigits.head_ne (h : AreDigits cs) {c : Char} (hc : c.isDigit = false)
    (rest : List Char) : cs ≠ c :: rest := by
  rintro rfl
  rw [h.2 c List.mem_cons_self] at hc
  cases hc

/-- The integers of 64 bits are those from `-2 ^ 63` up to `2 ^ 63`. -/
theorem exists_toInt_eq_iff : (∃ m : Int64, m.toInt = n) ↔ -2 ^ 63 ≤ n ∧ n < 2 ^ 63 := by
  constructor
  · rintro ⟨m, rfl⟩
    exact ⟨m.le_toInt, m.toInt_lt⟩
  · rintro ⟨hmin, hmax⟩
    exact ⟨Int64.ofInt n, Int64.toInt_ofInt_of_le hmin hmax⟩

/-- The integer among those of 64 bits, if it is one of them. -/
def int64? (n : Int) : Option Int64 :=
  if Int64.minValue.toInt ≤ n && n ≤ Int64.maxValue.toInt then some (Int64.ofInt n) else none

theorem int64?_eq_some_iff : int64? n = some m ↔ m.toInt = n := by
  constructor
  · intro h
    unfold int64? at h
    split at h
    · rename_i hfits
      obtain rfl := Option.some.inj h
      obtain ⟨hmin, hmax⟩ := Bool.and_eq_true_iff.1 hfits
      exact Int64.toInt_ofInt_of_le (of_decide_eq_true hmin)
        (Int.lt_of_le_of_lt (of_decide_eq_true hmax) (by decide))
    · cases h
  · rintro rfl
    rw [int64?, if_pos, Int64.ofInt_toInt]
    exact Bool.and_eq_true_iff.2
      ⟨decide_eq_true m.minValue_le_toInt, decide_eq_true m.toInt_le⟩

/-- A 64-bit number is read by its sign, its digits and then its range. -/
theorem readInt64?_eq (raw : String) : readInt64? raw =
    match raw.toList with
    | '+' :: digits => (decimal? digits).bind fun n => int64? n
    | '-' :: digits => (decimal? digits).bind fun n => int64? (-n)
    | digits => (decimal? digits).bind fun n => int64? n := rfl

/-- A numeral is read as its integer, if that is one of 64 bits. -/
theorem readInt64?_of_isNumeral (h : IsNumeral raw n) : readInt64? raw = int64? n := by
  have read {digits : List Char} (h : AreDigits digits) :
      decimal? digits = some (placeValue digits) := decimal?_eq_some_iff.2 ⟨h, rfl⟩
  rw [readInt64?_eq]
  cases h with
  | plain h =>
    rw [String.toList_ofList]
    split
    · exact absurd rfl (h.head_ne (by decide) _)
    · exact absurd rfl (h.head_ne (by decide) _)
    · rw [read h, Option.bind_some]
  | plus h | minus h =>
    rw [String.toList_ofList]
    show (decimal? _).bind _ = _
    rw [read h, Option.bind_some]

end Numerals

/-! ## Tokens -/

section Tokens

variable {raw : String}

/-- A numeral is a literal of its integer, or it is refused since that is none of 64 bits. -/
theorem literal?_of_isNumeral {n : Int} (h : IsNumeral raw n) :
    (-2 ^ 63 ≤ n ∧ n < 2 ^ 63 →
      ∃ m : Int64, m.toInt = n ∧ literal? (.integer raw) = some (.ok (.int m))) ∧
    (¬ (-2 ^ 63 ≤ n ∧ n < 2 ^ 63) →
      literal? (.integer raw) = some (.error (.invalidLiteral .integer raw))) := by
  constructor
  · intro hfits
    obtain ⟨m, hm⟩ := exists_toInt_eq_iff.2 hfits
    have hread : readInt64? raw = some m := 
      (readInt64?_of_isNumeral h).trans (int64?_eq_some_iff.2 hm)
    exact ⟨m, hm, by rw [literal?, hread]⟩
  · intro hout
    have hread : readInt64? raw = none := by
      rw [readInt64?_of_isNumeral h, Option.eq_none_iff_forall_ne_some]
      intro m hm
      exact hout (exists_toInt_eq_iff.1 ⟨m, int64?_eq_some_iff.1 hm⟩)
    rw [literal?, hread]

/-- What the lexer reads before the first fault of a source has the shape of its kind. -/
theorem isLexical_of_mem_scan {cs : List Char} {t : Token} (h : t ∈ (scan cs).1) :
    t.IsLexical True := by
  fun_induction scan cs with
  | case1 => cases h
  | case2 => cases h
  | case3 cs c after hcons u rest hu =>
    rename_i ih
    rcases List.mem_cons.1 h with rfl | h
    · exact (scanToken_isLexical hu).imp fun _ => trivial
    · exact ih h

theorem Token.IsLexical.enclosed {last : Prop} (h : (Token.string raw).IsLexical last) :
    ∃ text, raw = enclose '\'' text := by
  cases h with
  | string text => exact ⟨text, rfl⟩

theorem Token.IsLexical.isNumeral {last : Prop} (h : (Token.integer raw).IsLexical last) :
    ∃ n, IsNumeral raw n := by
  cases h with
  | integer hne h => exact ⟨_, .plain ⟨hne, h⟩⟩
  | negative hne h => exact ⟨_, .minus ⟨hne, h⟩⟩

end Tokens

/-- Every value but floating-point numbers is spelled as one token, which is a literal of it. Every
string literal that is read from a source, up to its first fault, is a literal of a text that it is
the spelling of; every integer that is read is a numeral, and it is a literal of the integer of 64
bits that it stands for or, where there is none, it is refused. -/
theorem literals_readBack :
    (∀ v : Value, v.isFloat = false →
      ∃ t, tokenize v.literal = .ok [t] ∧ literal? t = some (.ok v)) ∧
    ∀ source,
      (∀ raw, .string raw ∈ (scanSource source).1 → ∃ text,
        literal? (.string raw) = some (.ok (.text text)) ∧ (Value.text text).literal = raw) ∧
      ∀ raw, .integer raw ∈ (scanSource source).1 → (∃ n, IsNumeral raw n) ∧ ∀ n, IsNumeral raw n →
        (-2 ^ 63 ≤ n ∧ n < 2 ^ 63 →
          ∃ m : Int64, m.toInt = n ∧ literal? (.integer raw) = some (.ok (.int m))) ∧
        (¬ (-2 ^ 63 ≤ n ∧ n < 2 ^ 63) →
          literal? (.integer raw) = some (.error (.invalidLiteral .integer raw))) := by
  refine ⟨fun v hv => ⟨v.token, ?_, literal?_token hv⟩, fun source => ⟨?_, ?_⟩⟩
  · have hread : ∀ p ∈ [(v.literal, v.token)], ReadsAs p.1 p.2 := by
      simpa using Lexeme.readsAs_value hv
    simpa using tokenize_joined hread
  · intro raw hraw
    obtain ⟨text, rfl⟩ := (isLexical_of_mem_scan hraw).enclosed
    exact ⟨text, literal?_token (v := .text text) rfl, rfl⟩
  · intro raw hraw
    exact ⟨(isLexical_of_mem_scan hraw).isNumeral, fun n hn => literal?_of_isNumeral hn⟩

/-- The least integer goes through its token, doubled quotes through their text, and the integer
after the greatest one is refused. -/
theorem literals_readBack_extremes :
    (∃ t, tokenize (Value.int Int64.minValue).literal = .ok [t] ∧
      literal? t = some (.ok (.int Int64.minValue))) ∧
    (∃ text, literal? (.string "'it''s'") = some (.ok (.text text)) ∧
      (Value.text text).literal = "'it''s'") ∧
    literal? (.integer "9223372036854775808") =
      some (.error (.invalidLiteral .integer "9223372036854775808")) := by
  obtain ⟨values, tokens⟩ := literals_readBack
  obtain ⟨strings, integers⟩ := tokens "'it''s' 9223372036854775808"
  have hscan : (scanSource "'it''s' 9223372036854775808").1 =
      [.string "'it''s'", .integer "9223372036854775808"] := by decide +kernel
  have hdigits : IsNumeral "9223372036854775808" (placeValue "9223372036854775808".toList) :=
    .plain ⟨by decide, List.all_eq_true.1 (by decide)⟩
  refine ⟨values _ rfl, strings _ (by simp [hscan]), ?_⟩
  exact ((integers _ (by simp [hscan])).2 _ hdigits).2 (by decide)

end SqlCatalog

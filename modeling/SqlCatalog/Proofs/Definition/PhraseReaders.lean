import SqlCatalog.Definition.ColumnType
import SqlCatalog.Proofs.Definition.Descriptions
import SqlCatalog.Proofs.Definition.Literals
import SqlCatalog.Proofs.Lists

/-!
# Reading phrases

The readers of names, literals and types, each on the tokens of the phrases that a script writes in
its place.

## Main statements

* `readNames_tokens`, `readLiterals_tokens`: lists of names and of values.
* `readColumnType_tokens`: the type of a column.
-/

namespace SqlCatalog

open Phrase

/-! ## Tokens of phrases -/

@[simp] theorem tokens_nameOf (name : String) : (nameOf name).tokens = [.identifier [.name name]] :=
  rfl

/-- Items with commas between them are the first item, then each further one after its comma. -/
theorem tokensAll_commaSeparated_cons (item : List Phrase) (items : List (List Phrase)) :
    tokensAll (commaSeparated (item :: items)) =
      tokensAll item ++ items.flatMap fun item => .punctuation ',' :: tokensAll item := by
  rw [commaSeparated, intercalate_cons_flatMap, tokensAll_append]
  refine congrArg (tokensAll item ++ ·) ?_
  induction items with
  | nil => rfl
  | cons next items ih =>
    rw [List.flatMap_cons, List.flatMap_cons, tokensAll_append, tokensAll_append, ih]
    rfl

/-- Phrases of one token each, with commas between them. -/
theorem tokensAll_commaSeparated_single {α : Type} {phrase : α → Phrase} {token : α → Token}
    (h : ∀ a, (phrase a).tokens = [token a]) (a : α) (as : List α) :
    tokensAll (commaSeparated ((a :: as).map fun a => [phrase a])) =
      token a :: as.flatMap fun a => [.punctuation ',', token a] := by
  have hsingle (a : α) : tokensAll [phrase a] = [token a] := by
    rw [tokensAll, tokensAll, h, List.append_nil]
  rw [List.map_cons, tokensAll_commaSeparated_cons, hsingle, List.flatMap_map]
  simp only [hsingle, List.singleton_append]

/-! ## Lists of names -/

/-- Quoted names with commas between them are read as these names. -/
theorem readNames_tokens {names : List String} (hne : names ≠ []) :
    readNames (tokensAll (commaSeparated (names.map fun n => [nameOf n]))) = .ok names := by
  have more (names : List String) :
      readMoreNames (names.flatMap fun n => [.punctuation ',', .identifier [.name n]]) =
        .ok names := by
    induction names with
    | nil => rw [List.flatMap_nil, readMoreNames]
    | cons n names ih =>
      rw [List.flatMap_cons, List.cons_append, List.singleton_append]
      show (n :: ·) <$> readMoreNames _ = _
      rw [ih]
      rfl
  cases names with
  | nil => exact absurd rfl hne
  | cons n names =>
    rw [tokensAll_commaSeparated_single tokens_nameOf]
    show (readMoreNames _ >>= fun more => pure (n :: more)) = _
    rw [more]
    rfl

/-! ## Literals -/

/-- Values with commas between them are read as these values. -/
theorem readLiterals_tokens {values : List Value} (hne : values ≠ [])
    (hvalues : ∀ v ∈ values, v.isFloat = false) :
    readLiterals (tokensAll (commaSeparated (values.map fun v => [.plain (.value v)]))) =
      .ok values := by
  have hread {v : Value} (hv : v.isFloat = false) :
      readLiteral "integer or string literal" v.token = .ok v := by
    rw [readLiteral, literal?_token hv]
  have htoken (v : Value) : (Phrase.plain (.value v)).tokens = [v.token] := rfl
  cases values with
  | nil => exact absurd rfl hne
  | cons v values =>
    rw [tokensAll_commaSeparated_single htoken]
    induction values generalizing v with
    | nil =>
      rw [List.flatMap_nil, readLiterals, hread (hvalues v List.mem_cons_self)]
      rfl
    | cons w values ih =>
      obtain ⟨hv, hvalues⟩ := List.forall_mem_cons.1 hvalues
      rw [List.flatMap_cons, List.cons_append, List.singleton_append, readLiterals, hread hv]
      show (v :: ·) <$> readLiterals _ = _
      rw [ih w (by simp) hvalues]
      rfl

/-! ## Types -/

/-- Whether no word at the beginning of the tokens goes on with the words of a type. -/
def StopsWords (ts : List Token) : Prop :=
  ∀ t ∈ ts.head?, (∀ parts, t ≠ .call parts) ∧
    ∀ w ∈ ["precision", "varying", "with", "without"], t.isWord w = false

/-- Whether neither a word nor a length at the beginning of the tokens goes on with a type. -/
def StopsType (ts : List Token) : Prop :=
  StopsWords ts ∧ ∀ inner, ts.head? ≠ some (.paren inner)

/-- A type of one word has no further words before what ends it. -/
theorem readTypeWords_stops {ts : List Token} (h : StopsWords ts)
    (type : String × Option UInt32) : readTypeWords type ts = .ok (type, ts) := by
  cases ts with
  | nil =>
    unfold readTypeWords
    split <;> simp_all
  | cons t ts =>
    obtain ⟨hcall, hword⟩ := h t rfl
    simp only [List.forall_mem_cons] at hword
    obtain ⟨hprecision, hvarying, hwith, hwithout, -⟩ := hword
    unfold readTypeWords
    split <;> simp_all

/-- A type without a length has none before what ends it. -/
theorem readLengthAfter_stops {ts : List Token} (h : StopsType ts) (length : Option UInt32) :
    readLengthAfter length ts = .ok (length, ts) := by
  unfold readLengthAfter
  split
  · exact absurd rfl (h.2 _)
  · rfl

/-- Whether the tokens are at their end, or go on with a comma or a clause of a column other than
one that begins like the rest of a type. -/
def EndsType (ts : List Token) : Prop :=
  ∀ t ∈ ts.head?, t = .punctuation ',' ∨ ∃ w ∈ ["NOT", "DEFAULT", "REFERENCES"], t = .keyword w

theorem EndsType.stops {ts : List Token} (h : EndsType ts) : StopsType ts := by
  constructor
  · intro t ht
    rcases h t ht with rfl | ⟨k, hk, rfl⟩
    · exact ⟨by simp, fun _ _ => rfl⟩
    · have listed : ∀ k ∈ ["NOT", "DEFAULT", "REFERENCES"],
          ∀ w ∈ ["precision", "varying", "with", "without"],
            (Token.keyword k).isWord w = false := by
        decide +kernel
      exact ⟨by simp, listed k hk⟩
  · intro inner hhead
    simpa using h _ hhead

/-- A name is a word if it is one in lower case. -/
theorem isWord_identifier {b w : String} (hb : IsAsciiText b) (h : lower b = w)
    (hw : w.toList.map Char.toLower = w.toList) :
    (Token.identifier [.name b]).isWord w = true := by
  show (b.toList.map Char.toLower == w.toList.map Char.toLower) = true
  rw [← hb.toList_lower, h, hw, beq_self_eq_true]

theorem text_identifier (b : String) : (Token.identifier [.name b]).text = b := by
  simp [Token.text, Token.textTight]

/-- The types of two words keep both as they are written. -/
theorem readTypeWords_two {a b : String} (hb : IsAsciiText b)
    (h : lower a = "double" ∧ lower b = "precision" ∨ lower a = "character" ∧ lower b = "varying")
    (ts : List Token) :
    readTypeWords (a, none) (.identifier [.name b] :: ts) = .ok ((a ++ " " ++ b, none), ts) := by
  rcases h with ⟨ha, hb'⟩ | ⟨ha, hb'⟩
  · have hword := isWord_identifier hb hb' (by decide)
    unfold readTypeWords
    simp only [ha, hword, if_true, text_identifier]
    rfl
  · have hword := isWord_identifier hb hb' (by decide)
    unfold readTypeWords
    simp only [ha, hword, if_true, text_identifier]
    rfl

/-- The types with a time zone keep their first two words as they are written, and end in lower
case. -/
theorem readTypeWords_four {a b c d : String} (hb : IsAsciiText b) (hc : IsAsciiText c)
    (hd : IsAsciiText d) (ha : lower a = "timestamp" ∨ lower a = "time")
    (hb' : lower b = "with" ∨ lower b = "without") (hc' : lower c = "time")
    (hd' : lower d = "zone") (ts : List Token) :
    readTypeWords (a, none)
      (.identifier [.name b] :: .identifier [.name c] :: .identifier [.name d] :: ts) =
        .ok ((a ++ " " ++ b ++ " time zone", none), ts) := by
  have hwith : ((Token.identifier [.name b]).isWord "with" ||
      (Token.identifier [.name b]).isWord "without") = true := by
    rcases hb' with hb' | hb'
    · rw [isWord_identifier hb hb' (by decide), Bool.true_or]
    · rw [isWord_identifier hb hb' (by decide), Bool.or_true]
  have htime : readWord "time" (.identifier [.name c] :: .identifier [.name d] :: ts) =
      .ok (.identifier [.name d] :: ts) := by
    rw [readWord, if_pos (isWord_identifier hc hc' (by decide))]
  have hzone : readWord "zone" (.identifier [.name d] :: ts) = .ok ts := by
    rw [readWord, if_pos (isWord_identifier hd hd' (by decide))]
  rcases ha with ha | ha
  · unfold readTypeWords
    simp only [ha, hwith, if_true, htime, text_identifier]
    show (readWord "zone" (.identifier [.name d] :: ts) >>= _) = _
    rw [hzone]
    rfl
  · unfold readTypeWords
    simp only [ha, hwith, if_true, htime, text_identifier]
    show (readWord "zone" (.identifier [.name d] :: ts) >>= _) = _
    rw [hzone]
    rfl

/-- A time or a timestamp, with or without a time zone, is a known type. -/
theorem isKnownType_four {a b : String} (ha : IsAsciiText a) (hb : IsAsciiText b)
    (ha' : lower a = "timestamp" ∨ lower a = "time")
    (hb' : lower b = "with" ∨ lower b = "without") :
    isKnownType (a ++ " " ++ b ++ " time zone") = true := by
  have hspace : IsAsciiText " " := by
    rw [IsAsciiText, ← List.all_eq_true]
    decide
  have hend : IsAsciiText " time zone" := by
    rw [IsAsciiText, ← List.all_eq_true]
    decide
  have hlower : lower (a ++ " " ++ b ++ " time zone") =
      lower a ++ lower " " ++ lower b ++ lower " time zone" := by
    rw [((ha.append hspace).append hb).lower_append hend, (ha.append hspace).lower_append hb,
      ha.lower_append hspace]
  rw [isKnownType, hlower]
  rcases ha' with ha' | ha' <;> rcases hb' with hb' | hb' <;> rw [ha', hb'] <;> decide +kernel

/-- Reading a type goes word by word: the first word, the others and the length. -/
theorem readColumnType_ok {t : Token} {ts rest rest' : List Token}
    {head type : String × Option UInt32} {length : Option UInt32}
    (hhead : readTypeHead t = .ok head)
    (hwords : readTypeWords head ts = .ok (type, rest))
    (hlength : readLengthAfter type.2 rest = .ok (length, rest'))
    (hknown : isKnownType type.1 = true) :
    readColumnType (t :: ts) = .ok (⟨type.1, length⟩, rest') := by
  simp only [readColumnType, hhead, hwords, hlength, hknown, bind, Except.bind, if_true]
  rfl

/-- The words of a type with its length are read as that type, but for the letter case of the last
two words of four. -/
theorem readColumnType_tokens {type : ColumnType} (h : type.Valid) {rest : List Token}
    (hrest : EndsType rest) :
    readColumnType (tokensAll type.phrases ++ rest) = .ok (type.kept, rest) := by
  obtain ⟨hknown, hlength⟩ := h
  have hascii := isAsciiText_of_mem_typeWords (isAsciiText_of_isKnownType hknown)
  cases hn : type.length with
  | some n =>
    have hword : typeWords type.name = [type.name] :=
      typeWords_eq_singleton (hlength (by rw [hn]; rfl))
    have hkept : type.kept = ⟨type.name, some n⟩ := by
      rw [ColumnType.kept, hword, ← hn]
    have htokens : tokensAll type.phrases = [.call [.identifier [.name type.name],
        .paren [.integer (toString n.toNat)]]] := by
      rw [ColumnType.phrases, hn]
      rfl
    rw [htokens, hkept]
    have hread : readTypeLength [.integer (toString n.toNat)] = .ok n := by
      rw [readTypeLength, readUInt32?_toString]
    have hhead : readTypeHead (.call [.identifier [.name type.name],
        .paren [.integer (toString n.toNat)]]) = .ok (type.name, some n) := by
      show (readTypeLength _ >>= fun length => pure (type.name, some length)) = _
      rw [hread]
      rfl
    exact readColumnType_ok hhead (readTypeWords_stops hrest.stops.1 _)
      (readLengthAfter_stops hrest.stops _) hknown
  | none =>
    have htype : type = ⟨type.name, none⟩ := by rw [← hn]
    have htokens : tokensAll type.phrases =
        (typeWords type.name).map fun w => .identifier [.name w] := by
      rw [ColumnType.phrases, hn]
      induction typeWords type.name with
      | nil => rfl
      | cons w words ih => exact congrArg (.identifier [.name w] :: ·) ih
    have hhead (a : String) : readTypeHead (.identifier [.name a]) = .ok (a, none) := rfl
    have hend := readLengthAfter_stops hrest.stops none
    have hname := intercalate_typeWords type.name
    rcases typeWords_cases hknown with hone | ⟨a, b, htwo, hab⟩ |
      ⟨a, b, c, d, hfour, ha, hb, hc, hd⟩
    · rw [htokens, ColumnType.kept, hone, htype]
      exact readColumnType_ok (hhead _) (readTypeWords_stops hrest.stops.1 _) hend hknown
    · rw [htwo] at hascii hname
      have hname : a ++ " " ++ b = type.name := hname
      rw [htokens, ColumnType.kept, htwo, htype, ← hname]
      exact readColumnType_ok (hhead a) (readTypeWords_two (hascii b (by simp)) hab rest) hend
        (hname ▸ hknown)
    · rw [hfour] at hascii
      have hzone : a ++ " " ++ b ++ " " ++ lower c ++ " " ++ lower d =
          a ++ " " ++ b ++ " time zone" := by
        rw [hc, hd, String.append_assoc, String.append_assoc, String.append_assoc]
        rfl
      have hkept : type.kept = ⟨a ++ " " ++ b ++ " time zone", none⟩ := by
        rw [ColumnType.kept, hfour, ← hzone, ← hn]
      rw [htokens, hfour, hkept]
      exact readColumnType_ok (hhead a) (readTypeWords_four (hascii b (by simp))
        (hascii c (by simp)) (hascii d (by simp)) ha hb hc hd rest) hend
        (isKnownType_four (hascii a (by simp)) (hascii b (by simp)) ha hb)

end SqlCatalog

import SqlCatalog.Proofs.Definition.SpelledParts
import SqlCatalog.Proofs.Token.PrintedStatements

/-!
# Reading types from their text

A length is printed after all words of a type. There it belongs to the last word, as the arguments
of a call, and only the reader of `character varying` takes a call for a word: after the other types
of several words a length is read at any place but this one. Of the four words about a time zone the
last two are not kept as they are written, so that only the lower case of them is read back.

## Main definitions

* `ColumnType.printed` are the words of a type with its length after the last one.
* `Token.IsTypeWord` says what a word of a type is read as.
* `ColumnType.IsStable` says which types are read back from their text.

## Main statements

* `readsText_printed`: the text of a type is read as its words and its length.
* `readColumnType_printed_iff`: which types are read back.
-/

namespace SqlCatalog

open Phrase

/-- Words with a length in parentheses after the last one, if there is a length. -/
def wordPhrases (length : Option UInt32) : List String → List Phrase
  | [] => []
  | [w] =>
    match length with
    | none => [.plain (.word w)]
    | some n => [.applied (.word w) [.plain (.number n.toNat)]]
  | w :: words => .plain (.word w) :: wordPhrases length words

/-- Whether the token is what a word of a type is read as, with or without a length after it. -/
inductive Token.IsTypeWord : Token → Prop
  | word (w : String) : IsTypeWord (.identifier [.name w])
  | call (parts : List Token) : IsTypeWord (.call parts)

namespace ColumnType

/-- The words of a type with its length, as its text has them. -/
def printed (type : ColumnType) : List Phrase := wordPhrases type.length (typeWords type.name)

/-- Whether a type is read back from its text: a length stands after a single word or after
`character varying`, and the last two of four words are in lower case. -/
structure IsStable (type : ColumnType) : Prop where
  length : type.length.isSome = true → typeWords type.name = [type.name] ∨
    (typeWords type.name).map lower = ["character", "varying"]
  zone : ∀ a b c d, typeWords type.name = [a, b, c, d] → c = "time" ∧ d = "zone"

end ColumnType

section Texts

variable {length : Option UInt32} {words : List String}

/-! ## Texts -/

/-- The text of a type begins with its first word. -/
theorem text_type_append (w rest : String) (length : Option UInt32) :
    ColumnType.text ⟨w ++ (" " ++ rest), length⟩ =
      w ++ (" " ++ ColumnType.text ⟨rest, length⟩) := by
  cases length <;> simp [ColumnType.text, String.append_assoc]

/-- A length after what is read as one token. -/
theorem readsText_length {w : String} {t : Token} (h : ReadsText w [t]) (n : UInt32) :
    ReadsText (ColumnType.text ⟨w, some n⟩)
      [t, .punctuation '(', .integer (toString n.toNat), .punctuation ')'] := by
  have hclose : ReadsText ")" [.punctuation ')'] := .mark (c := ')') (by decide) .nil
  have hnumber := ((readsAs_nat n.toNat).readsText rfl).append hclose
    (.gap (c := ')') (by decide) rfl)
  have hall := h.append (ReadsText.mark (c := '(') (by decide) hnumber)
    (.gap (c := '(') (by decide) (by simp))
  have htext : ColumnType.text ⟨w, some n⟩ = w ++ ('('.toString ++ (toString n.toNat ++ ")")) := by
    simp [ColumnType.text, String.append_assoc]
  rw [htext]
  exact hall

/-- The words of a type that are plain and not reserved are read back one by one. -/
theorem readsText_wordPhrases (hne : words ≠ [])
    (h : ∀ w ∈ words, isPlainName w = true ∧ upper w ∉ reservedWords) :
    ReadsText (ColumnType.text ⟨" ".intercalate words, length⟩)
      ((piecesAll (wordPhrases length words)).map Prod.snd) := by
  induction words with
  | nil => exact absurd rfl hne
  | cons w words ih =>
    obtain ⟨hw, hwords⟩ := List.forall_mem_cons.1 h
    have hword : ReadsText w [.name w] := (Lexeme.readsAs (l := .word w) hw).readsText rfl
    cases words with
    | nil =>
      rw [String.intercalate_singleton]
      cases length with
      | none => exact hword
      | some n => exact readsText_length hword n
    | cons v words =>
      have hall := hword.spaced (ih (List.cons_ne_nil v words) hwords)
      have htext : " ".intercalate (w :: v :: words) =
          w ++ (" " ++ " ".intercalate (v :: words)) := by
        simp [String.append_assoc]
      rw [htext, text_type_append]
      exact hall

/-- The text of a known type is read as its words and its length. -/
theorem readsText_printed {type : ColumnType} (h : isKnownType type.name = true) :
    ReadsText type.text ((piecesAll type.printed).map Prod.snd) := by
  have hne : typeWords type.name ≠ [] := by simp [typeWords, List.splitOn_ne_nil]
  have hread : ReadsText (ColumnType.text ⟨_, type.length⟩) _ :=
    readsText_wordPhrases hne (isPlainName_of_mem_typeWords h)
  rwa [intercalate_typeWords] at hread

end Texts

section Types

variable {type : ColumnType} {a b c d : String}

/-! ## Types -/

/-- Two texts that are split at the same length are equal part by part. -/
theorem append_inj_of_length {s t s' t' : String} (h : s ++ t = s' ++ t')
    (hlength : s.toList.length = s'.toList.length) : s = s' ∧ t = t' := by
  rw [← String.toList_inj, String.toList_append, String.toList_append] at h
  obtain ⟨hs, ht⟩ := List.append_inj h hlength
  exact ⟨String.toList_inj.1 hs, String.toList_inj.1 ht⟩

/-- Text that is a word in lower case has as many characters as the word. -/
theorem length_of_lower (hc : IsAsciiText c) (hlower : lower c = d) :
    c.toList.length = d.toList.length := by
  rw [← hlower, hc.toList_lower, List.length_map]

/-- The last two words of four are known from the name that is made of the first two. -/
theorem eq_zone_of_name (hc : IsAsciiText c) (hlower : lower c = "time")
    (h : a ++ " " ++ b ++ " time zone" = " ".intercalate [a, b, c, d]) :
    c = "time" ∧ d = "zone" := by
  have hwords : " ".intercalate [a, b, c, d] = a ++ " " ++ b ++ (" " ++ (c ++ (" " ++ d))) := by
    simp [String.append_assoc]
  rw [hwords] at h
  obtain ⟨-, hzone⟩ := append_inj_of_length h rfl
  obtain ⟨-, htime⟩ := append_inj_of_length (s := " ") (t := "time zone") hzone rfl
  obtain ⟨rfl, hrest⟩ := append_inj_of_length (s := "time") (t := " zone") htime
    (length_of_lower hc hlower).symm
  obtain ⟨-, rfl⟩ := append_inj_of_length (s := " ") (t := "zone") hrest rfl
  exact ⟨rfl, rfl⟩

/-- Words with a length are read as names and calls. -/
theorem isTypeWord_wordPhrases {length : Option UInt32} {words : List String} :
    ∀ t ∈ tokensAll (wordPhrases length words), t.IsTypeWord := by
  induction words with
  | nil => simp [wordPhrases, tokensAll]
  | cons w words ih =>
    cases words with
    | nil =>
      cases length with
      | none => exact List.forall_mem_singleton.2 (.word w)
      | some n => exact List.forall_mem_singleton.2 (.call _)
    | cons v words => exact List.forall_mem_cons.2 ⟨.word w, ih⟩

/-- Two words in their place spell a type of two words. -/
theorem spellsTypeWords_two (hb : IsAsciiText b)
    (h : lower a = "double" ∧ lower b = "precision" ∨ lower a = "character" ∧ lower b = "varying") :
    SpellsTypeWords ⟨" ".intercalate [a, b], none⟩
      [.identifier [.name a], .identifier [.name b]] := by
  rcases h with ⟨ha, hword⟩ | ⟨ha, hword⟩
  · have hspelled := SpellsTypeWords.double (a := a) (t := .identifier [.name a]) (.word rfl) ha
      (isWord_identifier hb hword (by decide))
    rwa [text_identifier] at hspelled
  · have hspelled := SpellsTypeWords.varying (a := a) (t := .identifier [.name a]) (.word rfl) ha
      (isWord_identifier hb hword (by decide))
    rwa [text_identifier] at hspelled

theorem intercalate_zone :
    " ".intercalate [a, b, "time", "zone"] = a ++ " " ++ b ++ " time zone" := by
  have hwords : " ".intercalate [a, b, "time", "zone"] =
      a ++ " " ++ b ++ (" " ++ ("time" ++ (" " ++ "zone"))) := by
    simp [String.append_assoc]
  rw [hwords]
  rfl

/-- Four words in their place spell a type with a time zone. -/
theorem spellsTypeWords_zone (hb : IsAsciiText b) (ha : lower a = "timestamp" ∨ lower a = "time")
    (hword : lower b = "with" ∨ lower b = "without") :
    SpellsTypeWords ⟨" ".intercalate [a, b, "time", "zone"], none⟩
      [.identifier [.name a], .identifier [.name b], .identifier [.name "time"],
        .identifier [.name "zone"]] := by
  have hwith : (Token.identifier [.name b]).isWord "with" = true ∨
      (Token.identifier [.name b]).isWord "without" = true :=
    hword.imp (isWord_identifier hb · (by decide)) (isWord_identifier hb · (by decide))
  have hspelled := SpellsTypeWords.zone (a := a) (t := .identifier [.name a])
    (v := .identifier [.name "time"]) (w := .identifier [.name "zone"]) (.word rfl) ha hwith
    (by decide) (by decide)
  rw [text_identifier] at hspelled
  rw [intercalate_zone]
  exact hspelled

/-- A stable type is spelled by its words with its length after them. -/
theorem spelled_printed (hknown : isKnownType type.name = true) (h : type.IsStable) :
    type.Spelled (tokensAll type.printed) := by
  obtain ⟨name, length⟩ := type
  have hascii := isAsciiText_of_mem_typeWords (isAsciiText_of_isKnownType hknown)
  have hname := intercalate_typeWords name
  have htail : length.isSome = true → _ := h.length
  have hzone : ∀ a b c d, typeWords name = [a, b, c, d] → _ := h.zone
  rw [ColumnType.printed]
  dsimp only at hknown ⊢
  rcases typeWords_cases hknown with hone | ⟨a, b, htwo, hab⟩ | ⟨a, b, c, d, hfour, ha, hb, hc, hd⟩
  · rw [hone]
    cases length with
    | none => exact .words (.one (.word rfl))
    | some n => exact .words (.one (.call rfl (readUInt32?_toString n)))
  · rw [htwo] at hascii hname htail ⊢
    have hword := hascii b (by simp)
    obtain rfl : " ".intercalate [a, b] = name := hname
    cases length with
    | none => exact .words (spellsTypeWords_two hword hab)
    | some n =>
      -- The length is that of a call in place of the second word, which only one type has.
      obtain hone | hlower := htail rfl
      · simp at hone
      · obtain ⟨ha, hb⟩ : lower a = "character" ∧ lower b = "varying" := by simpa using hlower
        exact .words (.varyingCall (.word rfl) ha rfl (isWord_identifier hword hb (by decide))
          (readUInt32?_toString n))
  · obtain ⟨rfl, rfl⟩ := hzone a b c d hfour
    rw [hfour] at hascii hname htail ⊢
    obtain rfl : " ".intercalate [a, b, "time", "zone"] = name := hname
    cases length with
    | none => exact .words (spellsTypeWords_zone (hascii b (by simp)) ha hb)
    | some n =>
      obtain hone | hlower := htail rfl
      · simp at hone
      · simp at hlower

/-- A type that ends in a call after its first word is a `character varying`. -/
theorem lower_of_spelled_call {ts parts : List Token} (us : List Token) (h : type.Spelled ts)
    (hts : ts = .identifier [.name a] :: (us ++ [.call parts])) : lower a = "character" := by
  -- Where the last token is a word or a parenthesis, it is no call.
  have hlast := congrArg List.getLast? hts
  rw [← List.cons_append, List.getLast?_concat] at hlast
  cases h with
  | words hwords =>
    cases hwords with
    | one => simp at hts
    | double hhead ha hu =>
      obtain rfl := Option.some.inj hlast
      cases hu
    | varying hhead ha hu =>
      obtain rfl := Option.some.inj hlast
      cases hu
    | varyingCall hhead ha =>
      obtain ⟨rfl, -⟩ := List.cons.inj hts
      cases hhead with
      | word hname =>
        obtain rfl := Option.some.inj hname
        exact ha
    | zone hhead ha hu hv hw =>
      obtain rfl := Option.some.inj hlast
      cases hw
  | length =>
    rw [List.getLast?_concat] at hlast
    cases hlast

/-- The name of a type that is spelled by four words. -/
theorem name_of_spelled_four (h : type.Spelled [.identifier [.name a], .identifier [.name b],
    .identifier [.name c], .identifier [.name d]]) : type.name = a ++ " " ++ b ++ " time zone" := by
  generalize hts : [Token.identifier [.name a], .identifier [.name b], .identifier [.name c],
    .identifier [.name d]] = ts at h
  cases h with
  | words hwords =>
    subst hts
    cases hwords with
    | zone hhead =>
      cases hhead with
      | word hname =>
        obtain rfl := Option.some.inj hname
        rw [text_identifier]
        rfl
  | length =>
    have hlast := congrArg List.getLast? hts
    rw [List.getLast?_concat] at hlast
    cases hlast

/-- A known type that is spelled by its words with its length after them is stable. -/
theorem isStable_of_spelled (hknown : isKnownType type.name = true)
    (h : type.Spelled (tokensAll type.printed)) : type.IsStable := by
  obtain ⟨name, length⟩ := type
  have hascii := isAsciiText_of_mem_typeWords (isAsciiText_of_isKnownType hknown)
  have hname := intercalate_typeWords name
  have hspelled : ColumnType.Spelled ⟨name, length⟩ (tokensAll (wordPhrases length _)) := h
  rcases typeWords_cases hknown with hone | ⟨a, b, htwo, hab⟩ | ⟨a, b, c, d, hfour, ha, -, hc, -⟩
  · exact ⟨fun _ => .inl hone, fun a b c d hfour => by simp [hone] at hfour⟩
  · refine ⟨fun hlength => .inr ?_, fun a b c d hfour => by simp [htwo] at hfour⟩
    obtain ⟨n, rfl⟩ := Option.isSome_iff_exists.1 hlength
    rw [htwo] at hspelled ⊢
    have ha : lower a = "character" := lower_of_spelled_call [] hspelled rfl
    simpa [ha] using hab
  · cases length with
    | some n =>
      rw [hfour] at hspelled
      have hcharacter : lower a = "character" :=
        lower_of_spelled_call [.identifier [.name b], .identifier [.name c]] hspelled rfl
      simp [hcharacter] at ha
    | none =>
      refine ⟨fun hlength => (Bool.false_ne_true hlength).elim, fun a' b' c' d' hwords => ?_⟩
      rw [hfour] at hascii hname hspelled hwords
      obtain ⟨rfl, rfl, rfl, rfl⟩ : a = a' ∧ b = b' ∧ c = c' ∧ d = d' := by simpa using hwords
      have hread : name = a ++ " " ++ b ++ " time zone" := name_of_spelled_four hspelled
      exact eq_zone_of_name (hascii c (by simp)) hc (hread.symm.trans hname.symm)

/-- Which types are read back from their words with their length after them. -/
theorem readColumnType_printed_iff (hknown : isKnownType type.name = true) :
    readColumnType (tokensAll type.printed) = .ok (type, []) ↔ type.IsStable := by
  have hread {ts : List Token} : readColumnType ts = .ok (type, []) ↔ type.Spelled ts := by
    constructor
    · intro h
      obtain ⟨-, us, hus, hspelled⟩ := spelled_of_readColumnType h
      rwa [hus, List.append_nil]
    · intro h
      have hnil : StopsType [] := ⟨by simp [StopsWords], by simp⟩
      rw [← List.append_nil ts]
      exact readColumnType_of_spelled h hknown hnil
  exact hread.trans ⟨isStable_of_spelled hknown, spelled_printed hknown⟩

end Types

end SqlCatalog

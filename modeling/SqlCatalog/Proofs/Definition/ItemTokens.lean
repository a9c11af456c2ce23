import SqlCatalog.Proofs.Definition.SpelledBodies
import SqlCatalog.Proofs.Lists

/-!
# The tokens of the parts of a body

Where the parts of a body end can be told from the tokens themselves: no part has a comma outside of
its parentheses, so that the parts are spelled by what stands between the commas; and a type has
none of the keywords that clauses begin with, so that the clauses of a column begin at the first of
these.

## Main definitions

* `Token.startsClause` says whether a clause begins with the token.

## Main statements

* `ColumnType.Spelled.not_startsClause`: no clause begins inside a type.
* `ItemSyntax.Spelled.not_mark`: no part has a comma.
* `spellsItems_iff`: parts are spelled by what stands between the commas of a body.
-/

namespace SqlCatalog

/-! ## Where clauses begin -/

/-- Whether the token is a keyword that clauses begin with. -/
def Token.startsClause (t : Token) : Bool := clauseWords.any fun word => t.isKeyword word

section Tokens

variable {t : Token} {ts : List Token} {word : String} {mark : Char}

/-- A keyword that clauses begin with starts one. -/
theorem Token.startsClause_of_isKeyword (h : t.isKeyword word = true) (hword : word ∈ clauseWords) :
    t.startsClause = true :=
  List.any_eq_true.2 ⟨word, hword, h⟩

theorem isKeyword_of_name? {n : String} (h : t.name? = some n) (word : String) :
    t.isKeyword word = false := by
  cases t with
  | keyword k => cases h
  | _ => rfl

/-- A token that says a word is no other keyword. -/
theorem isKeyword_of_isWord {other : String} (h : t.isWord word = true)
    (hother : sameIgnoringAsciiCase word other = false) : t.isKeyword other = false := by
  cases t with
  | keyword k => exact isKeyword_eq_false (a := word) h hother
  | _ => rfl

/-- A token starts no clause exactly when it is none of the keywords for it. -/
theorem startsClause_eq_false_iff :
    t.startsClause = false ↔ ∀ word ∈ clauseWords, t.isKeyword word = false := by
  simp [Token.startsClause]

/-- The words of types that are read as words are no keywords of clauses. -/
theorem startsClause_of_isWord (h : t.isWord word = true)
    (hword : word ∈ ["precision", "varying", "with", "without", "time", "zone"]) :
    t.startsClause = false := by
  have hnot : ∀ word ∈ ["precision", "varying", "with", "without", "time", "zone"],
      ∀ other ∈ clauseWords, sameIgnoringAsciiCase word other = false := by decide +kernel
  exact startsClause_eq_false_iff.2 fun other hother =>
    isKeyword_of_isWord h (hnot word hword other hother)

theorem SpellsTypeHead.not_startsClause {type : ColumnType} (h : SpellsTypeHead type t) :
    t.startsClause = false := by
  cases h with
  | word hname => exact startsClause_eq_false_iff.2 fun word _ => isKeyword_of_name? hname word
  | call => exact startsClause_eq_false_iff.2 fun _ _ => rfl

/-- No word of a type starts a clause. -/
theorem SpellsTypeWords.not_startsClause {type : ColumnType} (h : SpellsTypeWords type ts) :
    ∀ t ∈ ts, t.startsClause = false := by
  cases h with
  | one h => simpa using h.not_startsClause
  | double h _ hu =>
    simpa using ⟨h.not_startsClause, startsClause_of_isWord hu (by decide)⟩
  | varying h _ hu =>
    simpa using ⟨h.not_startsClause, startsClause_of_isWord hu (by decide)⟩
  | varyingCall h =>
    simpa using ⟨h.not_startsClause, startsClause_eq_false_iff.2 fun _ _ => rfl⟩
  | zone h _ hu hv hw =>
    have hu' := hu.elim (fun hu => startsClause_of_isWord hu (by decide))
      fun hu => startsClause_of_isWord hu (by decide)
    simpa using ⟨h.not_startsClause, hu', startsClause_of_isWord hv (by decide),
      startsClause_of_isWord hw (by decide)⟩

/-- No clause begins inside a type. -/
theorem ColumnType.Spelled.not_startsClause {type : ColumnType} (h : type.Spelled ts) :
    ∀ t ∈ ts, t.startsClause = false := by
  cases h with
  | words h => exact h.not_startsClause
  | length h _ =>
    exact List.forall_mem_append.2
      ⟨h.not_startsClause, by simpa using startsClause_eq_false_iff.2 fun _ _ => rfl⟩

/-- Clauses begin with a keyword of theirs. -/
theorem SpellsClauses.startsClause {cs : List ClauseSyntax} (h : SpellsClauses cs ts) :
    ∀ t ∈ ts.head?, t.startsClause = true := by
  cases h with
  | nil => simp
  | cons h _ =>
    obtain ⟨k, us, rfl, word, hword, hk⟩ := h.head
    simpa using Token.startsClause_of_isKeyword hk hword

/-! ## Where parts end -/

theorem isMark_of_isKeyword (h : t.isKeyword word = true) : t.isMark mark = false := by
  cases t with
  | keyword => rfl
  | _ => cases h

theorem isMark_of_isWord (h : t.isWord word = true) : t.isMark mark = false := by
  cases t with
  | punctuation => cases h
  | _ => rfl

theorem isMark_of_name? {n : String} (h : t.name? = some n) : t.isMark mark = false := by
  cases t with
  | punctuation => cases h
  | _ => rfl

theorem isMark_of_literal? {v : Compile Value} (h : literal? t = some v) :
    t.isMark mark = false := by
  cases t with
  | punctuation => cases h
  | _ => rfl

theorem SpellsWords.not_mark {words : List String} (h : SpellsWords words ts) :
    ∀ t ∈ ts, t.isMark mark = false := by
  induction h with
  | nil => simp
  | cons ht _ ih => exact List.forall_mem_cons.2 ⟨isMark_of_isKeyword ht, ih⟩

theorem SpellsTypeHead.not_mark {type : ColumnType} (h : SpellsTypeHead type t) :
    t.isMark mark = false := by
  cases h with
  | word hname => exact isMark_of_name? hname
  | call => rfl

theorem SpellsTypeWords.not_mark {type : ColumnType} (h : SpellsTypeWords type ts) :
    ∀ t ∈ ts, t.isMark mark = false := by
  cases h with
  | one h => simpa using h.not_mark
  | double h _ hu | varying h _ hu => simpa using ⟨h.not_mark, isMark_of_isWord hu⟩
  | varyingCall h => simpa using ⟨h.not_mark, rfl⟩
  | zone h _ hu hv hw =>
    simpa using ⟨h.not_mark, hu.elim isMark_of_isWord isMark_of_isWord, isMark_of_isWord hv,
      isMark_of_isWord hw⟩

/-- There are no marks in a type, since its length stands inside a call. -/
theorem ColumnType.Spelled.not_mark {type : ColumnType} (h : type.Spelled ts) :
    ∀ t ∈ ts, t.isMark mark = false := by
  cases h with
  | words h => exact h.not_mark
  | length h _ => exact List.forall_mem_append.2 ⟨h.not_mark, by simp [Token.isMark]⟩

theorem DefaultSyntax.Spelled.not_mark {v : DefaultSyntax} (h : v.Spelled t) :
    t.isMark mark = false := by
  cases h with
  | null h => exact isMark_of_isKeyword h
  | literal _ h => exact isMark_of_literal? h
  | next | procedure => rfl

theorem SpellsTarget.not_mark {n : String} (h : SpellsTarget n t) : t.isMark mark = false := by
  cases h with
  | name h => exact isMark_of_name? h
  | call => rfl

/-- There are no marks in a clause, so a comma ends it. -/
theorem ClauseSyntax.Spelled.not_mark {c : ClauseSyntax} (h : c.Spelled ts) :
    ∀ t ∈ ts, t.isMark mark = false := by
  cases h with
  | primaryKey h | unique h | notNull h | null h | onDelete h => exact h.not_mark
  | check hk _ | defaultInside hk _ => simpa using ⟨isMark_of_isKeyword hk, rfl⟩
  | default hk hv => simpa using ⟨isMark_of_isKeyword hk, hv.not_mark⟩
  | references hk ht => simpa using ⟨isMark_of_isKeyword hk, ht.not_mark⟩

/-- There are no marks in a run of clauses, so a comma ends the column. -/
theorem SpellsClauses.not_mark {cs : List ClauseSyntax} (h : SpellsClauses cs ts) :
    ∀ t ∈ ts, t.isMark mark = false := by
  induction h with
  | nil => simp
  | cons h _ ih => exact List.forall_mem_append.2 ⟨h.not_mark, ih⟩

/-- There are no marks in a rule, so a comma ends it. -/
theorem RuleSyntax.Spelled.not_mark {r : RuleSyntax} (h : r.Spelled ts) :
    ∀ t ∈ ts, t.isMark mark = false := by
  cases h with
  | primaryKey h _ => exact List.forall_mem_append.2 ⟨h.not_mark, by simp [Token.isMark]⟩
  | unique hk _ | check hk _ => simpa using ⟨isMark_of_isKeyword hk, rfl⟩

theorem SpellsConstraintName.not_mark {name : Option String} (h : SpellsConstraintName name ts) :
    ∀ t ∈ ts, t.isMark mark = false := by
  cases h with
  | none => simp
  | some hk h => simpa using ⟨isMark_of_isKeyword hk, isMark_of_name? h⟩

/-- No part of a body has a comma outside of its parentheses. -/
theorem ItemSyntax.Spelled.not_mark {x : ItemSyntax} (h : x.Spelled ts) :
    ∀ t ∈ ts, t.isMark mark = false := by
  cases h with
  | column hname htype hclauses =>
    exact List.forall_mem_cons.2
      ⟨isMark_of_name? hname, List.forall_mem_append.2 ⟨htype.not_mark, hclauses.not_mark⟩⟩
  | constraint hname hrule =>
    exact List.forall_mem_append.2 ⟨hname.not_mark, hrule.not_mark⟩

end Tokens

/-! ## Parts between commas -/

/-- Parts are spelled by what stands between the commas of a body. -/
theorem spellsItems_iff {items : List ItemSyntax} {body : List Token} :
    SpellsItems items body ↔
      List.Forall₂ ItemSyntax.Spelled items (body.splitOnP (Token.isMark ',')) := by
  constructor
  · intro h
    induction h with
    | one h =>
      rw [List.splitOnP_eq_singleton h.not_mark]
      exact .cons h .nil
    | cons h hcomma _ ih =>
      rw [List.splitOnP_append_cons_of_forall_mem h.not_mark _ hcomma]
      exact .cons h ih
  · intro h
    induction items generalizing body with
    | nil => exact absurd (List.forall₂_nil_left_iff.1 h) (List.splitOnP_ne_nil _ _)
    | cons x items ih =>
      obtain ⟨first, hfirst, rfl | ⟨comma, rest, hcomma, rfl⟩⟩ :=
        exists_first_separator (Token.isMark ',') body
      · rw [List.splitOnP_eq_singleton hfirst] at h
        obtain ⟨hx, hitems⟩ := List.forall₂_cons.1 h
        rw [List.forall₂_nil_right_iff.1 hitems]
        exact .one hx
      · rw [List.splitOnP_append_cons_of_forall_mem hfirst comma hcomma] at h
        obtain ⟨hx, hitems⟩ := List.forall₂_cons.1 h
        exact .cons hx hcomma (ih hitems)

end SqlCatalog

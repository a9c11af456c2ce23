import SqlCatalog.Proofs.Catalog.Coherent
import SqlCatalog.Proofs.Catalog.Dispatch
import SqlCatalog.Proofs.Definition.ClauseRuns
import SqlCatalog.Proofs.Definition.PrintedTypes

/-!
# Declaring columns with the text of a type

The types of columns are the known types with any length, since a type of several words can be
written between quotes or with the length after its first word. A column that is declared with the
text of such a type gets the same type exactly if the type is stable. The text has a length after
several words, and there it is read in a `character varying` only.

## Main definitions

* `columnSource` is the definition of a table with one column whose type is written in a given way.

## Main statements

* `into_columnSource`: what the definition of a table with one column makes of a schema.
* `exists_column_iff`: which types columns can have.
* `column_retyped_iff`: which types are given again by their text.
-/

namespace SqlCatalog

open Phrase

/-! ## Types of columns -/

/-- Every column of a schema has a known type. -/
theorem isKnownType_of_reachable {s : Schema} (h : Reachable s) :
    ∀ t ∈ s.tables, ∀ c ∈ t.columns, isKnownType c.type.name = true := by
  refine h.of_change (P := fun s => ∀ t ∈ s.tables, ∀ c ∈ t.columns, isKnownType c.type.name = true)
    (by simp [Schema.empty]) fun s kind statement s' hs hchange => ?_
  cases hchange with
  | table hread hplace hfree =>
    obtain ⟨t, -, hvalid, rfl⟩ := readTable_eq_ok.1 hread
    rw [withDraft_of_drafted (drafted_of_valid _ hvalid)]
    refine List.forall_mem_append.2 ⟨hs, List.forall_mem_singleton.2 fun c hc => ?_⟩
    obtain ⟨i, hi⟩ := List.mem_iff_getElem?.1 hc
    rw [TableSyntax.table, TableSyntax.tableOver, List.getElem?_mapIdx] at hi
    obtain ⟨column, hcolumn, rfl⟩ := Option.map_eq_some_iff.1 hi
    exact hvalid.types column (List.mem_of_getElem? hcolumn)
  | sequence | index | blank => exact hs
  | seedRow ht hrow =>
    obtain ⟨-, rfl⟩ := Table.addRow_ok hrow
    intro u hu
    obtain ⟨v, hv, rfl | rfl⟩ := mem_modify hu
    · exact hs u hv
    · exact fun c hc => hs _ ht c hc

/-! ## The definition of a table with one column -/

/-- The definition of a table with one column of the given type, as it is written. -/
def columnSource (table column type : String) : String :=
  "create table " ++ enclose '"' table ++ " (" ++ enclose '"' column ++ " " ++ type ++ ");"

/-- The phrases of a table with one column. -/
def columnPhrases (table column : String) (type : List Phrase) : List Phrase :=
  keywords ["CREATE", "TABLE"] ++ [.applied (.name table) (nameOf column :: type)]

section Sources

variable {table column text : String} {type : List Phrase} {s s' : Schema}

/-- The definition of a table with one column is read as its phrases when the text of the type is.
-/
theorem tokenize_columnSource (h : ReadsText text ((piecesAll type).map Prod.snd)) :
    tokenize (columnSource table column text) =
      .ok ((scriptPieces [columnPhrases table column type]).map Prod.snd) := by
  have hcreate : ReadsText "create" [.keyword "CREATE"] :=
    (Lexeme.readsAs_keyword (by decide) (by decide +kernel) (by decide)).readsText rfl
  have htable : ReadsText "table" [.keyword "TABLE"] :=
    (Lexeme.readsAs_keyword (by decide) (by decide +kernel) (by decide)).readsText rfl
  have hname (n : String) : ReadsText (enclose '"' n) [.name n] := (readsAs_name n).readsText rfl
  have hend : ReadsText ";" [.punctuation ';'] := .mark (c := ';') (by decide) .nil
  have hgap : EndsToken (')'.toString ++ ";").toList := .gap (c := ')') (by decide) (by simp)
  have hbody := (hname column).spaced (h.append (.mark (c := ')') (by decide) hend) hgap)
  have hall := hcreate.spaced (htable.spaced ((hname table).spaced
    (.mark (c := '(') (by decide) hbody)))
  have htext : columnSource table column text = "create" ++ (" " ++ ("table" ++ (" " ++
      (enclose '"' table ++ (" " ++ ('('.toString ++
        (enclose '"' column ++ (" " ++ (text ++ (')'.toString ++ ";")))))))))) := by
    refine String.toList_inj.1 ?_
    unfold columnSource
    simp
  rw [tokenize_eq_ok, htext]
  have hread := hall [] (by simp [EndsToken])
  simpa [columnPhrases, scriptPieces, piecesAll, pieces, keywords, nameOf,
    Lexeme.token] using hread

/-- The definition of a table with one column is compiled as what it is. -/
theorem into_columnSource_iff (h : ReadsText text ((piecesAll type).map Prod.snd)) :
    (compileSource (columnSource table column text)).into s = (.ok ⟨⟩, s') ↔ ∃ id,
      (compileTable (groupedAll (columnPhrases table column type))).into s = (.ok id, s') := by
  have hstatements : statements (columnSource table column text) = _ :=
    statements_of_scriptPieces (tokenize_columnSource h)
  have hkind : StatementKind.of (groupedAll (columnPhrases table column type)) = .ok .table := rfl
  have hinto : (compileSource (columnSource table column text)).into s =
      (Functor.discard (compileTable (groupedAll (columnPhrases table column type)))).into s := by
    rw [into_compileSource, hstatements]
    show (compileScript [_]).into s = _
    rw [into_compileScript_singleton, into_compileStatement, hkind]
    rfl
  rw [hinto]
  exact ⟨Compiling.exists_of_into_discard, fun ⟨_, hid⟩ => Compiling.into_discard hid⟩

/-- The one column of a body begins with its name, and its type is the rest. -/
theorem spellsItems_singleton_iff {items : List ItemSyntax} {ts : List Token}
    (hwords : ∀ t ∈ ts, t.IsTypeWord) :
    SpellsItems items (.identifier [.name column] :: ts) ↔
      ∃ type : ColumnType, items = [.column ⟨column, type, []⟩] ∧ type.Spelled ts := by
  have hclause : ∀ t ∈ ts, t.startsClause = false := fun t ht => by cases hwords t ht <;> rfl
  have hcomma : ∀ t ∈ ts, t.isMark ',' = false := fun t ht => by cases hwords t ht <;> rfl
  have hsplit : (Token.identifier [.name column] :: ts).splitOnP (Token.isMark ',') = [_] :=
    List.splitOnP_eq_singleton (List.forall_mem_cons.2 ⟨rfl, hcomma⟩)
  have hbegins : BeginsColumn column (.identifier [.name column] :: ts) := .mk rfl hclause
  have hcolumn (x : ItemSyntax) : x.Spelled (.identifier [.name column] :: ts) ↔
      ∃ type cs, x = .column ⟨column, type, cs⟩ ∧ type.Spelled ts ∧
        List.Forall₂ ClauseSyntax.Spelled cs [] := by
    rw [← List.append_nil (_ :: ts)]
    exact spelled_column_iff hbegins .nil
  rw [spellsItems_iff, hsplit]
  constructor
  · intro h
    obtain ⟨x, _, hx, hnil, rfl⟩ := List.forall₂_cons_right_iff.1 h
    obtain rfl := List.forall₂_nil_right_iff.1 hnil
    obtain ⟨type, cs, rfl, htype, hcs⟩ := (hcolumn x).1 hx
    obtain rfl := List.forall₂_nil_right_iff.1 hcs
    exact ⟨type, rfl, htype⟩
  · rintro ⟨type, rfl, htype⟩
    exact .cons ((hcolumn _).2 ⟨type, [], rfl, htype, .nil⟩) .nil

/-- A table with one column is valid exactly when its name is free and its type known. -/
theorem TableSyntax.valid_singleton_iff {type : ColumnType} :
    TableSyntax.Valid ⟨table, [.column ⟨column, type, []⟩]⟩ s ↔
      (∀ u ∈ s.tables, s.sameName u.name table = false) ∧ isKnownType type.name = true := by
  constructor
  · exact fun h => ⟨h.free, h.types ⟨column, type, []⟩ (by simp [columnsOf, ItemSyntax.column?])⟩
  · rintro ⟨hfree, hknown⟩
    exact {
      free := hfree
      distinct := List.nodup_singleton _
      types := by simpa [columnsOf, ItemSyntax.column?] using hknown
      key := by simp [keys, placed, ItemSyntax.keys]
      columns := by
        intro before x hbefore n hn
        obtain rfl := List.mem_singleton.1 (hbefore.subset List.mem_concat_self)
        simp [ItemSyntax.mentions] at hn
      sequences := by simp [ItemSyntax.clauses]
      targets := by simp [ItemSyntax.clauses] }

/-- Words of a type behind a column spell a table of that one column only. -/
theorem spelled_columnPhrases_iff (hwords : ∀ t ∈ tokensAll type, t.IsTypeWord) {x : TableSyntax} :
    x.Spelled (tokensAll (columnPhrases table column type)) ↔
      ∃ T : ColumnType, x = ⟨table, [.column ⟨column, T, []⟩]⟩ ∧ T.Spelled (tokensAll type) := by
  have hcreate : SpellsWords ["CREATE", "TABLE"] [.keyword "CREATE", .keyword "TABLE"] :=
    .cons (by decide +kernel) (.cons (by decide +kernel) .nil)
  have hhead : readTableHead (tokensAll (columnPhrases table column type)) =
      .ok (table, .identifier [.name column] :: tokensAll type) :=
    readTableHead_eq_ok.2 ⟨_, hcreate, .inl ⟨_, rfl, rfl⟩⟩
  have hitems (items : List ItemSyntax) :
      SpellsItems items (.identifier [.name column] :: tokensAll type) ↔ _ :=
    spellsItems_singleton_iff hwords
  rw [spelled_iff, hhead]
  obtain ⟨name, items⟩ := x
  constructor
  · rintro ⟨body, hbody, hx⟩
    obtain ⟨rfl, rfl⟩ := Prod.mk.inj (Except.ok.inj hbody)
    obtain ⟨T, rfl, hT⟩ := (hitems items).1 hx
    exact ⟨T, rfl, hT⟩
  · rintro ⟨T, hx, hT⟩
    obtain ⟨rfl, rfl⟩ := TableSyntax.mk.inj hx
    exact ⟨_, rfl, (hitems _).2 ⟨T, rfl, hT⟩⟩

/-- What the definition of a table with one column makes of a schema: its type is what the tokens
are spelled as. -/
theorem into_columnSource (h : ReadsText text ((piecesAll type).map Prod.snd))
    (hwords : ∀ t ∈ tokensAll type, t.IsTypeWord)
    (hfree : ∀ u ∈ s.tables, s.sameName u.name table = false) :
    (compileSource (columnSource table column text)).into s = (.ok ⟨⟩, s') ↔
      ∃ T : ColumnType, T.Spelled (tokensAll type) ∧ isKnownType T.name = true ∧
        s' = TableSyntax.addedTo ⟨table, [.column ⟨column, T, []⟩]⟩ s "" := by
  have hcomment : leadingComment (groupedAll (columnPhrases table column type)) = "" := rfl
  have hspelled (x : TableSyntax) :
      x.Spelled (tokensAll (columnPhrases table column type)) ↔ _ :=
    spelled_columnPhrases_iff hwords
  rw [← flatten_groupedAll] at hspelled
  rw [into_columnSource_iff h]
  constructor
  · rintro ⟨id, hid⟩
    obtain ⟨x, hx, hvalid, -, rfl⟩ := spelled_of_into_compileTable hid
    obtain ⟨T, rfl, hT⟩ := (hspelled x).1 hx
    exact ⟨T, hT, (TableSyntax.valid_singleton_iff.1 hvalid).2, by rw [hcomment]⟩
  · rintro ⟨T, hT, hknown, rfl⟩
    have hvalid : TableSyntax.Valid ⟨table, [.column ⟨column, T, []⟩]⟩ s :=
      TableSyntax.valid_singleton_iff.2 ⟨hfree, hknown⟩
    have hinto := into_compileTable_of_spelled ((hspelled _).2 ⟨T, rfl, hT⟩) hvalid
    rw [hcomment] at hinto
    exact ⟨_, hinto⟩

end Sources

/-! ## Types that are given again -/

section Retyped

variable {table column : String} {type : ColumnType} {s : Schema}

/-- The types of columns are the known types, with any length or none. -/
theorem exists_column_iff : (∃ s, Reachable s ∧ ∃ t ∈ s.tables, ∃ c ∈ t.columns, c.type = type) ↔
    isKnownType type.name = true := by
  constructor
  · rintro ⟨s, hs, t, ht, c, hc, rfl⟩
    exact isKnownType_of_reachable hs t ht c hc
  · -- A type of several words can be written as one word, between quotes.
    intro hknown
    obtain ⟨name, length⟩ := type
    have hname : ReadsText (enclose '"' name) [.name name] := (readsAs_name name).readsText rfl
    obtain ⟨text, phrases, htext, hspelled, hwords⟩ : ∃ (text : String) (phrases : List Phrase),
        ReadsText text ((piecesAll phrases).map Prod.snd) ∧
          ColumnType.Spelled ⟨name, length⟩ (tokensAll phrases) ∧
            ∀ t ∈ tokensAll phrases, t.IsTypeWord := by
      cases length with
      | none =>
        exact ⟨_, [nameOf name], hname, .words (.one (.word rfl)),
          List.forall_mem_singleton.2 (.word name)⟩
      | some n =>
        exact ⟨_, [.applied (.name name) [.plain (.number n.toNat)]], readsText_length hname n,
          .words (.one (.call rfl (readUInt32?_toString n))),
          List.forall_mem_singleton.2 (.call _)⟩
    have hdone : (compileSource (columnSource "t" "x" text)).into (.empty "" .standard) = _ :=
      (into_columnSource htext hwords (by simp [Schema.empty])).2
        ⟨_, hspelled, hknown, rfl⟩
    have hreachable := (Reachable.empty "" .standard).submit (.source (columnSource "t" "x" text))
    rw [Schema.submit, Submission.compile, hdone] at hreachable
    exact ⟨_, hreachable, _, List.mem_concat_self, _, List.mem_singleton_self _, rfl⟩

/-- A column that is declared with the text of a known type gets this type exactly if the type is
stable. -/
theorem retyped_iff (hknown : isKnownType type.name = true)
    (hfree : ∀ u ∈ s.tables, s.sameName u.name table = false) :
    (∃ s' t, (compileSource (columnSource table column type.text)).into s = (.ok ⟨⟩, s') ∧
      s'.tables = s.tables ++ [t] ∧ t.columns.map (fun c => (c.name, c.type)) = [(column, type)]) ↔
        type.IsStable := by
  have hinto (s' : Schema) :
      (compileSource (columnSource table column type.text)).into s = (.ok ⟨⟩, s') ↔ _ :=
    into_columnSource (readsText_printed hknown) isTypeWord_wordPhrases hfree
  constructor
  · rintro ⟨s', t, hdone, htables, hcolumns⟩
    obtain ⟨T, hT, -, rfl⟩ := (hinto s').1 hdone
    obtain rfl := List.singleton_injective (List.append_cancel_left htables)
    obtain rfl : T = type := (Prod.mk.inj (List.singleton_injective hcolumns)).2
    exact isStable_of_spelled hknown hT
  · intro hstable
    exact ⟨_, _, (hinto _).2 ⟨type, spelled_printed hknown hstable, hknown, rfl⟩, rfl, rfl⟩

end Retyped

/-- A column that is declared with the text of the type of some column gets this type exactly if the
type is stable, whatever the schema and the names. -/
theorem column_retyped_iff {s : Schema} (h : Reachable s) {t : Table} (ht : t ∈ s.tables)
    {c : Column} (hc : c ∈ t.columns) (s₀ : Schema) (table column : String)
    (hfree : ∀ u ∈ s₀.tables, s₀.sameName u.name table = false) :
    (∃ s' u, (compileSource (columnSource table column c.type.text)).into s₀ = (.ok ⟨⟩, s') ∧
      s'.tables = s₀.tables ++ [u] ∧
        u.columns.map (fun c => (c.name, c.type)) = [(column, c.type)]) ↔ c.type.IsStable :=
  retyped_iff (isKnownType_of_reachable h t ht c hc) hfree

/-- A `character varying` with a length is given again by its text. -/
theorem column_retyped_iff_varying :
    let s := (Schema.empty "" .standard).submit
      (.source "create table t (x Character VARYING (20))")
    let type : ColumnType := ⟨"Character VARYING", some 20⟩
    (s.tables.map fun t => t.columns.map Column.type) = [[type]] ∧ type.IsStable ∧
      ∃ s' u, (compileSource (columnSource "u" "y" type.text)).into s = (.ok ⟨⟩, s') ∧
        s'.tables = s.tables ++ [u] ∧
          u.columns.map (fun c => (c.name, c.type)) = [("y", type)] := by
  intro s type
  have htypes : (s.tables.map fun t => t.columns.map Column.type) = [[type]] := by decide +kernel
  have hwords : typeWords type.name = ["Character", "VARYING"] := by decide +kernel
  have hstable : type.IsStable :=
    ⟨fun _ => .inr (by decide +kernel), fun a b c d h => by simp [hwords] at h⟩
  obtain ⟨t, htables, hcolumns⟩ := List.map_eq_singleton_iff.1 htypes
  obtain ⟨c, hc, hctype⟩ := List.map_eq_singleton_iff.1 hcolumns
  have hreachable : Reachable s := (Reachable.empty "" .standard).submit _
  have ht : t ∈ s.tables := by simp [htables]
  have hretyped := column_retyped_iff hreachable ht (c := c) (by simp [hc]) s "u" "y"
    (by decide +kernel)
  rw [hctype] at hretyped
  exact ⟨htypes, hstable, hretyped.2 hstable⟩

/-- A length is read inside of a type with a time zone, but not after it, where the text of the type
has it. -/
theorem zoned_length_not_retyped :
    let s := (Schema.empty "" .standard).submit
      (.source "create table t (x timestamp(6) with time zone)")
    let type : ColumnType := ⟨"timestamp with time zone", some 6⟩
    (s.tables.map fun t => t.columns.map Column.type) = [[type]] ∧
      columnSource "u" "x" type.text =
        "create table \"u\" (\"x\" timestamp with time zone(6));" ∧
      ((compileSource (columnSource "u" "x" type.text)).into s).1.mapError CompileError.message =
        .error "Violated expectation: expected zone, got function zone(6)" := by
  decide +kernel

end SqlCatalog

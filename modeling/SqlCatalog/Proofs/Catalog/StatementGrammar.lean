import SqlCatalog.Proofs.Catalog.Compiling
import SqlCatalog.Proofs.Catalog.Distinct
import SqlCatalog.Proofs.Definition.StatementSyntax

/-!
# Sequences, indexes and seed rows by their grammar

A statement is compiled as a definition of a sequence or an index, or as a seed row, exactly if its
flat tokens are spelled as one, what it mentions is there and the name that it takes is free. Then
the schema has the one object or row more that the statement describes.

## Main definitions

* `DefinesSequence`, `DefinesIndex` and `DefinesRow` say which tokens make which schema of a schema.

## Main statements

* `compileSequence_eq_ok`, `compileIndex_eq_ok`, `compileSeedRow_eq_ok`: the three kinds.
* `statements_by_grammar`: all of them in a reachable schema.
-/

namespace SqlCatalog

/-! ## Tables of a schema -/

namespace Schema

variable {s : Schema} {t : Table}

/-- A table that has the name is found by it, and no other one is. -/
theorem Distinct.tableNamed_eq_ok (h : s.Distinct) {name : String} :
    s.tableNamed name = .ok t ↔ t ∈ s.tables ∧ s.sameName t.name name = true := by
  rw [h.tableNamed_eq_ok_iff, sameName, Dialect.sameName, beq_iff_eq]

/-- Changing a table of a schema leaves those before it and after it as they are. -/
theorem Coherent.modifyTable_eq (h : s.Coherent) {before after : List Table}
    (htables : s.tables = before ++ t :: after) (change : Table → Table) :
    s.modifyTable t.id change = { s with tables := before ++ change t :: after } := by
  have hplace : t.id = before.length := h.tableIds _ t (by simp [htables])
  rw [Schema.modifyTable, htables, hplace]
  simp [List.modify_eq_set_getElem?]

end Schema

/-! ## What the statements say of a schema -/

/-- The flat tokens define a sequence of a free name, which the schema has one more of. -/
inductive DefinesSequence (s : Schema) : List Token → SequenceId → Schema → Prop
  | mk {name : String} {ts : List Token} (h : SpellsSequence name ts)
      (hfree : ∀ q ∈ s.sequences, s.sameName q.name name = false) :
      DefinesSequence s ts s.sequences.length
        { s with sequences := s.sequences ++ [⟨s.sequences.length, name, []⟩] }

/-- The flat tokens define an index of a free name over columns of a table that is there. The index
has the places of these columns, in their order. -/
inductive DefinesIndex (s : Schema) : List Token → Schema → Prop
  | mk {d : IndexHead} {names : List String} {t : Table} {ts : List Token} (h : d.Spelled ts)
      (hnames : SpellsNames names d.columns) (ht : t ∈ s.tables)
      (hname : s.sameName t.name d.table = true) (hthere : ∀ n ∈ names, NamedIn t.names n)
      (hfree : ∀ i ∈ s.indexes, s.sameName i.name d.name = false) :
      DefinesIndex s ts { s with indexes := s.indexes ++
        [⟨d.name, t.id, d.unique, d.method, names.map (placeIn t.names)⟩] }

/-- The flat tokens are a seed row for a table that is there, with one value at most for each of its
columns. The row has each value under the name of the column at its place. -/
inductive DefinesRow (s : Schema) : List Token → Schema → Prop
  | mk {d : SeedRowDefinition} {before after : List Table} {t : Table} {ts : List Token}
      (h : d.Spelled ts) (htables : s.tables = before ++ t :: after)
      (hname : s.sameName t.name d.table = true) (hfits : d.values.length ≤ t.columns.length) :
      DefinesRow s ts { s with tables :=
        before ++ { t with rows := t.rows ++ [t.names.zip d.values] } :: after }

section Statements

variable {s s' : Schema} {statement : Statement}

/-- A table takes a row exactly when it has no more values than columns. -/
theorem Table.addRow_eq_ok {t t' : Table} {values : List Value} : t.addRow values = .ok t' ↔
    values.length ≤ t.columns.length ∧ t' = { t with rows := t.rows ++ [t.names.zip values] } := by
  constructor
  · exact addRow_ok
  · rintro ⟨hfits, rfl⟩
    rw [addRow, if_neg (Nat.not_lt.2 hfits)]
    rfl

/-- A sequence is compiled exactly where it is defined. -/
theorem compileSequence_eq_ok {id : SequenceId} :
    (compileSequence statement).into s = (.ok id, s') ↔
      DefinesSequence s (Token.flatten statement) id s' := by
  constructor
  · have hyields : (compileSequence statement).Yields s
        (DefinesSequence s (Token.flatten statement)) := by
      refine Compiling.Yields.get (Compiling.Yields.read fun name hname => ?_)
      refine Compiling.Yields.read fun s' hs' => ?_
      obtain ⟨hfree, rfl⟩ := Schema.addSequence_ok (fromCatalog_eq_ok.1 hs')
      exact Compiling.Yields.of_into rfl (.mk (readSequenceDefinition_eq_ok.1 hname) hfree)
    exact hyields.of_ok
  · rintro ⟨hspelled, hfree⟩
    exact into_compileSequence (readSequenceDefinition_eq_ok.2 hspelled) hfree

/-- An index is compiled exactly where it is defined. -/
theorem compileIndex_eq_ok (hs : s.Distinct) :
    (compileIndex statement).into s = (.ok ⟨⟩, s') ↔
      DefinesIndex s (Token.flatten statement) s' := by
  constructor
  · have hyields : (compileIndex statement).Yields s
        fun _ s' => DefinesIndex s (Token.flatten statement) s' := by
      refine Compiling.Yields.get (Compiling.Yields.read fun d hd => ?_)
      refine Compiling.Yields.read fun t ht => Compiling.Yields.read fun names hnames => ?_
      refine Compiling.Yields.read fun columns hcolumns => ?_
      refine Compiling.Yields.read fun s' hs' => ?_
      obtain ⟨hmem, hname⟩ := Schema.tableNamed_ok (fromCatalog_eq_ok.1 ht)
      obtain ⟨hthere, rfl⟩ := Table.columnIndexes_eq_ok.1 (fromCatalog_eq_ok.1 hcolumns)
      obtain ⟨hfree, rfl⟩ := Schema.addIndex_ok (fromCatalog_eq_ok.1 hs')
      exact .set (.mk (readIndexHead_eq_ok.1 hd) (readNames_eq_ok.1 hnames) hmem hname hthere hfree)
    exact hyields.of_ok
  · rintro ⟨hspelled, hnames, ht, hname, hthere, hfree⟩
    exact into_compileIndex (readIndexHead_eq_ok.2 hspelled) (hs.tableNamed_eq_ok.2 ⟨ht, hname⟩)
      (readNames_eq_ok.2 hnames) (Table.columnIndexes_eq_ok.2 ⟨hthere, rfl⟩) hfree

/-- A seed row is compiled exactly where it is defined. -/
theorem compileSeedRow_eq_ok (hs : s.Distinct) (hcoherent : s.Coherent) :
    (compileSeedRow statement).into s = (.ok ⟨⟩, s') ↔
      DefinesRow s (Token.flatten statement) s' := by
  constructor
  · have hyields : (compileSeedRow statement).Yields s
        fun _ s' => DefinesRow s (Token.flatten statement) s' := by
      refine Compiling.Yields.get (Compiling.Yields.read fun d hd => ?_)
      refine Compiling.Yields.read fun t ht => Compiling.Yields.read fun t' ht' => ?_
      obtain ⟨hmem, hname⟩ := Schema.tableNamed_ok (fromCatalog_eq_ok.1 ht)
      obtain ⟨hfits, rfl⟩ := Table.addRow_eq_ok.1 (fromCatalog_eq_ok.1 ht')
      obtain ⟨before, after, htables⟩ := List.append_of_mem hmem
      rw [hcoherent.modifyTable_eq htables]
      exact .set (.mk (readSeedRow_eq_ok.1 hd) htables hname hfits)
    exact hyields.of_ok
  · rintro ⟨hspelled, htables, hname, hfits⟩
    rename_i d before after t
    have hmem : t ∈ s.tables := by simp [htables]
    rw [← hcoherent.modifyTable_eq htables fun _ =>
      { t with rows := t.rows ++ [t.names.zip d.values] }]
    exact into_compileSeedRow (readSeedRow_eq_ok.2 hspelled) (hs.tableNamed_eq_ok.2 ⟨hmem, hname⟩)
      (Table.addRow_eq_ok.2 ⟨hfits, rfl⟩)

end Statements

/-- In a reachable schema, sequences, indexes and seed rows are compiled exactly from the statements
that are spelled as definitions of them whose names are free and which mention what is there, and
the schema has just what they describe at its end, or that of the table, afterwards. -/
theorem statements_by_grammar {s : Schema} (h : Reachable s) (statement : Statement) (s' : Schema) :
    (∀ id, (compileSequence statement).into s = (.ok id, s') ↔
      DefinesSequence s (Token.flatten statement) id s') ∧
    ((compileIndex statement).into s = (.ok ⟨⟩, s') ↔
      DefinesIndex s (Token.flatten statement) s') ∧
    ((compileSeedRow statement).into s = (.ok ⟨⟩, s') ↔
      DefinesRow s (Token.flatten statement) s') := by
  have hs := distinct_of_reachable h
  exact ⟨fun _ => compileSequence_eq_ok, compileIndex_eq_ok hs,
    compileSeedRow_eq_ok hs (coherent_of_reachable h)⟩

/-- The schema of a source with one table. -/
def pairsOnly : Schema :=
  (Schema.empty "" .standard).submit (.source "create table pairs (a integer, b integer)")

/-- An index definition of both columns of the table, in the other order and in other letters. -/
def pairsHead : IndexHead :=
  ⟨"i", true, "pairs", some "btree", [.name "B", .punctuation ',', .name "a"]⟩

/-- The tokens of the index definition. -/
def pairsIndex : Statement :=
  [.keyword "CREATE", .keyword "UNIQUE", .keyword "INDEX", .name "i", .keyword "ON", .name "pairs",
    .keyword "USING", .call [.name "btree", .paren [.name "B", .punctuation ',', .name "a"]]]

/-- The tokens of a row with a value for the first column of the table. -/
def pairsRow : Statement :=
  [.keyword "INSERT", .keyword "INTO", .name "pairs", .keyword "VALUES", .paren [.keyword "NULL"]]

/-- The index is added with the places of its columns, and the row with the name of its column. -/
theorem statements_by_grammar_pairs :
    (∃ s', (compileIndex pairsIndex).into pairsOnly = (.ok ⟨⟩, s') ∧
      s'.indexes = [⟨"i", 0, true, some "btree", [1, 0]⟩]) ∧
    ∃ s', (compileSeedRow pairsRow).into pairsOnly = (.ok ⟨⟩, s') ∧
      s'.tables.map Table.rows = [[[("a", .null)]]] := by
  have hreachable : Reachable pairsOnly := (Reachable.empty "" .standard).submit _
  obtain ⟨houtline, hnames, hindexes⟩ : pairsOnly.tables.map (fun t => (t.id, t.name, t.rows)) =
      [(0, "pairs", [])] ∧ pairsOnly.tables.map Table.names = [["a", "b"]] ∧
        pairsOnly.indexes = [] := by
    decide +kernel
  obtain ⟨t, htables⟩ : ∃ t, pairsOnly.tables = [t] :=
    List.length_eq_one_iff.1 (by simpa using congrArg List.length houtline)
  simp only [htables, List.map_cons, List.map_nil, List.cons.injEq, Prod.mk.injEq, and_true]
    at houtline hnames
  obtain ⟨hid, hname, hrows⟩ := houtline
  have hsame : pairsOnly.sameName t.name "pairs" = true := by rw [hname]; decide +kernel
  have hwidth : t.columns.length = 2 := by simpa [Table.names] using congrArg List.length hnames
  constructor
  · have hlist : SpellsNames ["B", "a"] [.name "B", .punctuation ',', .name "a"] :=
      .cons rfl rfl (.one rfl)
    have hwords : SpellsWords pairsHead.words [.keyword "CREATE", .keyword "UNIQUE",
        .keyword "INDEX"] :=
      .cons (by decide +kernel) (.cons (by decide +kernel) (.cons (by decide +kernel) .nil))
    have htarget : pairsHead.TargetSpelled [.name "pairs", .keyword "USING",
        .call [.name "btree", .paren [.name "B", .punctuation ',', .name "a"]]] :=
      .method rfl (by decide +kernel) rfl
    have hspelled := IndexHead.Spelled.mk (d := pairsHead) (t := .name "i") (k := .keyword "ON")
      hwords rfl (by decide +kernel) htarget
    refine ⟨_, (statements_by_grammar hreachable pairsIndex _).2.1.2
      (.mk hspelled hlist (t := t) (by simp [htables]) hsame ?_ (by simp [hindexes])), ?_⟩
    · rw [hnames]
      exact List.forall_mem_cons.2 ⟨⟨"b", by simp, by decide +kernel⟩,
        List.forall_mem_singleton.2 ⟨"a", by simp, rfl⟩⟩
    · rw [hindexes, hnames, hid]
      decide +kernel
  · have hwords : SpellsWords ["INSERT", "INTO"] [.keyword "INSERT", .keyword "INTO"] :=
      .cons (by decide +kernel) (.cons (by decide +kernel) .nil)
    have hvalues : SpellsLiterals [.null] [.keyword "NULL"] :=
      .one (literal?_token (v := .null) rfl)
    have hspelled := SeedRowDefinition.Spelled.mk (d := ⟨"pairs", [.null]⟩) (t := .name "pairs")
      (k := .keyword "VALUES") hwords rfl (by decide +kernel) hvalues
    have hsplit : pairsOnly.tables = [] ++ t :: [] := htables
    refine ⟨_, (statements_by_grammar hreachable pairsRow _).2.2.2
      (.mk hspelled hsplit hsame (by simp [hwidth])), ?_⟩
    simp [hrows, hnames]

end SqlCatalog

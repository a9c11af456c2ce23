import SqlCatalog.Proofs.Definition.TableReaders

/-!
# Reading declarations

The statement of a declaration can be read by the lexer, says what kind it is in its first two
words, and is read as what it declares.

## Main statements

* `allReadable_phrases`: the statement of a valid declaration can be read by the lexer.
* `kind_phrases`: what its first words say.
* `readSequenceDefinition_phrases`, `readTable_phrases`, `readIndexHead_phrases` and
  `readSeedRow_phrases`: one for each kind of declaration.
-/

namespace SqlCatalog

open Phrase

/-! ## Readable phrases -/

theorem allReadable_append {ps qs : List Phrase} :
    AllReadable (ps ++ qs) ↔ AllReadable ps ∧ AllReadable qs := by
  simp only [allReadable_iff, List.forall_mem_append]

/-- Keywords that are reserved words are readable. -/
theorem allReadable_keywords {words : List String} (h : ∀ w ∈ words, w ∈ reservedWords) :
    AllReadable (keywords words) := by
  rw [allReadable_iff]
  intro p hp
  obtain ⟨w, hw, rfl⟩ := List.mem_map.1 hp
  exact h w hw

theorem isReadable_reserved {w : String} (h : w ∈ reservedWords) :
    (Lexeme.reserved w).IsReadable := h

theorem allReadable_nameOf (name : String) : AllReadable [nameOf name] := ⟨trivial, trivial⟩

/-- Items that are readable stay so with commas between them. -/
theorem allReadable_commaSeparated {items : List (List Phrase)}
    (h : ∀ item ∈ items, AllReadable item) : AllReadable (commaSeparated items) := by
  cases items with
  | nil => trivial
  | cons item items =>
    obtain ⟨hitem, hitems⟩ := List.forall_mem_cons.1 h
    rw [commaSeparated, intercalate_cons_flatMap, allReadable_append]
    refine ⟨hitem, allReadable_iff.2 fun p hp => ?_⟩
    obtain ⟨next, hnext, hp⟩ := List.mem_flatMap.1 hp
    rcases List.mem_append.1 hp with hp | hp
    · obtain rfl := List.mem_singleton.1 hp
      trivial
    · exact allReadable_iff.1 (hitems next hnext) p hp

theorem allReadable_columnList (t : TableDeclaration) (places : List Nat) :
    AllReadable (t.columnList places) := by
  refine allReadable_commaSeparated fun item hitem => ?_
  obtain ⟨i, -, rfl⟩ := List.mem_map.1 hitem
  exact allReadable_nameOf _

theorem ColumnType.Valid.allReadable {type : ColumnType} (h : type.Valid) :
    AllReadable type.phrases := by
  have hwords := isPlainName_of_mem_typeWords h.1
  rw [ColumnType.phrases]
  cases hlength : type.length with
  | none =>
    rw [allReadable_iff]
    intro p hp
    obtain ⟨w, hw, rfl⟩ := List.mem_map.1 hp
    exact hwords w hw
  | some n =>
    have hone : typeWords type.name = [type.name] :=
      typeWords_eq_singleton (h.2 (by simp [hlength]))
    rw [hone] at hwords
    exact ⟨⟨hwords type.name (by simp), trivial, trivial⟩, trivial⟩

namespace ColumnDeclaration

variable {d : Description} {c : ColumnDeclaration} {sequences : Nat} {id : TableId}

theorem allReadable_phrase {v : DefaultDeclaration} (h : v.Valid sequences) :
    (v.phrase d).IsReadable := by
  have hnextval : (Lexeme.word "nextval").IsReadable := ⟨by decide, by decide +kernel⟩
  cases v with
  | null => rfl
  | literal v => exact h.1
  | next q => exact ⟨hnextval, rfl, trivial⟩

theorem Valid.allReadable (h : c.Valid sequences id) : AllReadable (c.phrases d) := by
  have hrequired : AllReadable c.requiredPhrases := by
    rw [requiredPhrases]
    split
    · exact allReadable_keywords (by decide)
    · trivial
  have hdefault : AllReadable (c.defaultPhrases d) := by
    rw [defaultPhrases]
    cases hc : c.default with
    | none => trivial
    | some v =>
      exact allReadable_append.2
        ⟨allReadable_keywords (by decide), allReadable_phrase (h.default v hc), trivial⟩
  have haction (action : DeleteAction) : AllReadable action.phrases := by
    cases action <;> exact allReadable_keywords (by decide)
  have hreference : AllReadable (c.referencePhrases d) := by
    rw [referencePhrases]
    cases c.reference with
    | none => trivial
    | some r =>
      obtain ⟨r, action⟩ := r
      rw [allReadable_append, allReadable_append]
      refine ⟨⟨allReadable_keywords (by decide), allReadable_nameOf _⟩, ?_⟩
      cases action with
      | none => trivial
      | some action => exact haction action
  rw [phrases, allReadable_append, allReadable_append, allReadable_append]
  exact ⟨⟨⟨⟨trivial, h.type.allReadable⟩, hrequired⟩, hdefault⟩, hreference⟩

end ColumnDeclaration

/-- The body of a valid table is readable. -/
theorem TableDeclaration.Valid.allReadable {d : Description} {t : TableDeclaration}
    {sequences : Nat} {id : TableId} (h : t.Valid sequences id) : AllReadable (t.body d) := by
  have hkey (key : List Nat) : AllReadable (t.keyPhrases key) :=
    allReadable_append.2 ⟨allReadable_keywords (by decide),
      ⟨isReadable_reserved (by decide), allReadable_columnList t key⟩, trivial⟩
  have hunique (u : Option String × List Nat) : AllReadable (t.uniquePhrases u) := by
    rw [uniquePhrases, allReadable_append]
    refine ⟨?_, ⟨isReadable_reserved (by decide), allReadable_columnList t u.2⟩, trivial⟩
    split
    · exact allReadable_append.2 ⟨allReadable_keywords (by decide), allReadable_nameOf _⟩
    · trivial
  refine allReadable_commaSeparated fun item hitem => ?_
  rcases List.mem_append.1 hitem with hitem | hitem
  · rcases List.mem_append.1 hitem with hitem | hitem
    · obtain ⟨c, hc, rfl⟩ := List.mem_map.1 hitem
      exact (h.columns c hc).allReadable
    · obtain ⟨key, -, rfl⟩ := List.mem_map.1 hitem
      exact hkey key
  · obtain ⟨u, -, rfl⟩ := List.mem_map.1 hitem
    exact hunique u

/-- The statement of a valid declaration can be read by the lexer. -/
theorem allReadable_phrases {dialect : Dialect} {before d : Description} {x : Declaration}
    (h : x.Valid dialect before) : AllReadable (d.phrases x) := by
  have hcolumns (id : TableId) (places : List Nat) : AllReadable (d.columnList id places) := by
    rw [Description.columnList]
    cases d.tables[id]? with
    | none => trivial
    | some t => exact allReadable_columnList t places
  cases x with
  | sequence name =>
    exact allReadable_append.2 ⟨allReadable_keywords (by decide), allReadable_nameOf name⟩
  | table t =>
    exact allReadable_append.2
      ⟨allReadable_keywords (by decide), ⟨trivial, h.2.allReadable⟩, trivial⟩
  | index i =>
    rw [Description.phrases, Description.indexPhrases, allReadable_append, allReadable_append,
      allReadable_append]
    refine ⟨⟨⟨?_, allReadable_nameOf _⟩, allReadable_keywords (by decide)⟩, ?_⟩
    · split <;> exact allReadable_keywords (by decide)
    · split
      · rw [allReadable_append, allReadable_append]
        exact ⟨⟨allReadable_nameOf _, allReadable_keywords (by decide)⟩,
          ⟨trivial, hcolumns i.table i.columns⟩, trivial⟩
      · exact ⟨⟨trivial, hcolumns i.table i.columns⟩, trivial⟩
  | row id values =>
    have hvalues : AllReadable (commaSeparated (values.map fun v => [.plain (.value v)])) := by
      refine allReadable_commaSeparated fun item hitem => ?_
      obtain ⟨v, hv, rfl⟩ := List.mem_map.1 hitem
      exact ⟨h.2.1 v hv, trivial⟩
    rw [Description.phrases, allReadable_append, allReadable_append]
    exact ⟨⟨allReadable_keywords (by decide), allReadable_nameOf _⟩,
      ⟨isReadable_reserved (by decide), hvalues⟩, trivial⟩

/-! ## Statements -/

/-- What kind of statement declares something. -/
def Declaration.kind : Declaration → StatementKind
  | sequence _ => .sequence
  | table _ => .table
  | index _ => .index
  | row _ _ => .seedRow

/-- The phrases of a declaration are taken for a statement of its kind. -/
theorem kind_phrases (d : Description) (x : Declaration) :
    StatementKind.of (groupedAll (d.phrases x)) = .ok x.kind := by
  cases x with
  | sequence name => rfl
  | table t => rfl
  | index i =>
    obtain ⟨name, table, unique, method, columns⟩ := i
    cases unique <;> rfl
  | row id values => rfl

section Readers

variable (d : Description)

/-- The phrases of a sequence are read as its name. -/
theorem readSequenceDefinition_phrases (name : String) :
    readSequenceDefinition (Token.flatten (groupedAll (d.phrases (.sequence name)))) =
      .ok name := by
  rw [flatten_groupedAll]
  rfl

/-- The phrases of an index are read as its parts, the columns still as tokens. -/
theorem readIndexHead_phrases (i : Index) :
    readIndexHead (Token.flatten (groupedAll (d.phrases (.index i)))) =
      .ok ⟨i.name, i.unique, d.tableName i.table, i.method,
        tokensAll (d.columnList i.table i.columns)⟩ := by
  rw [flatten_groupedAll]
  obtain ⟨name, table, unique, method, columns⟩ := i
  cases unique <;> cases method <;> rfl

/-- The phrases of a row are read as the name of its table and its values. -/
theorem readSeedRow_phrases (id : TableId) {values : List Value} (hne : values ≠ [])
    (hvalues : ∀ v ∈ values, v.isFloat = false) :
    readSeedRow (Token.flatten (groupedAll (d.phrases (.row id values)))) =
      .ok ⟨d.tableName id, values⟩ := by
  have hread := readLiterals_tokens hne hvalues
  rw [flatten_groupedAll]
  show (readLiterals _ >>= fun values => pure (SeedRowDefinition.mk (d.tableName id) values)) = _
  rw [hread]
  rfl

/-- The statement of a table is read as the draft of that table. -/
theorem readTable_phrases {s : Schema} {t : TableDeclaration} {sequences : Nat} {id : TableId}
    (hs : s.Finds d sequences id) (hname : t.name = d.tableName id)
    (hfree : s.freshTable t.name = .ok (.empty id t.name)) (ht : t.Valid sequences id) :
    ∃ notices, s.readTable (groupedAll (d.phrases (.table t))) =
      .ok (t.draft id notices, none) := by
  obtain ⟨notices, hbody⟩ := readBody_body hs hname ht
  have hhead : readTableHead (Token.flatten (groupedAll (d.phrases (.table t)))) =
      .ok (t.name, tokensAll (t.body d)) := by
    rw [flatten_groupedAll]
    rfl
  refine ⟨notices, ?_⟩
  rw [Schema.readTable, hhead]
  show (fromCatalog (s.freshTable t.name) >>= _) = _
  rw [hfree, ← hbody]
  rfl

end Readers

end SqlCatalog

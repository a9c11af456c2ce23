import SqlCatalog.Proofs.Catalog.Distinct
import SqlCatalog.Proofs.Definition.PhraseReaders

/-!
# Reading declared columns

A column of a declared table is read clause by clause. After each clause the draft is that of the
table declared so far, with as much of the column as was read.

## Main definitions

* `TableDeclaration.draft` is the draft in which a declared table ends up.
* `TableDeclaration.withColumn` is the table with one more column.
* `Schema.Finds` says that the names of what was declared before a table lead to it.

## Main statements

* `readBody_required`, `readBody_default` and `readBody_reference`: one for each clause.
* `readBody_column`: reading the definition of a column adds that column.
-/

namespace SqlCatalog

open Phrase

/-! ## Drafts of declared tables -/

namespace TableDeclaration

variable (t : TableDeclaration)

/-- The table with one more column. -/
def withColumn (c : ColumnDeclaration) : TableDeclaration := { t with columns := t.columns ++ [c] }

/-- The sequences that the columns use, with the places of these columns. -/
def uses : List (SequenceId × Nat) :=
  t.columns.zipIdx.filterMap fun c =>
    (c.1.default.bind DefaultDeclaration.sequence?).map fun id => (id, c.2)

/-- The draft of the table at the place `id`. -/
def draft (id : TableId) (notices : List Notice) : Draft := ⟨t.table id [], t.uses, notices⟩

variable {t} {c : ColumnDeclaration} {id : TableId}

/-- One more column is one more place, if it has the property asked for. -/
theorem places_withColumn (p : ColumnDeclaration → Bool) :
    (t.withColumn c).places p = t.places p ++ if p c then [t.columns.length] else [] := by
  rw [places, withColumn, List.zipIdx_append, List.filterMap_append]
  cases hp : p c <;> simp [places, hp]

/-- One more column is one more use of a sequence, if its default is one. -/
theorem uses_withColumn : (t.withColumn c).uses =
    t.uses ++ ((c.default.bind DefaultDeclaration.sequence?).map fun id =>
      (id, t.columns.length)).toList := by
  rw [uses, withColumn, List.zipIdx_append, List.filterMap_append, ← uses, List.zipIdx_singleton,
    Nat.zero_add]
  refine congrArg (t.uses ++ ·) ?_
  cases h : c.default.bind DefaultDeclaration.sequence? <;>
    simp only [List.filterMap_cons, List.filterMap_nil, h] <;> rfl

/-- One more column is one more constraint, if it is required. -/
theorem constraints_withColumn (h : t.uniques = []) : (t.withColumn c).constraints =
    t.constraints ++ if c.required then [.notNull t.columns.length] else [] := by
  rw [constraints, constraints, places_withColumn, h, show (t.withColumn c).uniques = [] from h]
  cases c.required <;> simp

/-- What one more column does to a table without constraints other than those of its columns. -/
theorem table_withColumn (h : t.uniques = []) :
    (t.withColumn c).table id [] =
      { t.table id [] with
        columns := (t.table id []).columns ++ [c.column id t.columns.length]
        constraints := (t.table id []).constraints ++
          if c.required then [.notNull t.columns.length] else [] } := by
  have hcolumns : ((t.withColumn c).columns.mapIdx fun i c => c.column id i) =
      (t.columns.mapIdx fun i c => c.column id i) ++ [c.column id t.columns.length] :=
    List.mapIdx_concat
  rw [table, constraints_withColumn h, hcolumns]
  rfl

theorem length_columns_table (rows : List (List Value)) :
    (t.table id rows).columns.length = t.columns.length := by
  simp [table]

theorem names_table (id : TableId) (rows : List (List Value)) :
    (t.table id rows).columns.map Column.name = t.columns.map ColumnDeclaration.name := by
  ext i : 1
  simp only [table, List.getElem?_map, List.getElem?_mapIdx, Option.map_map]
  rfl

/-- A change to the last column of a table, other than that it may not be null. -/
theorem modifyColumn_withColumn (h : t.uniques = []) {c' : ColumnDeclaration}
    (f : Column → Column) (hf : f (c.column id t.columns.length) = c'.column id t.columns.length)
    (hrequired : c'.required = c.required) :
    ((t.withColumn c).table id []).modifyColumn t.columns.length f =
      (t.withColumn c').table id [] := by
  have hlast : ((t.table id []).columns ++ [c.column id t.columns.length]).modify
      t.columns.length f = (t.table id []).columns ++ [c'.column id t.columns.length] := by
    have hlength : (t.table id []).columns.length = t.columns.length := length_columns_table []
    rw [← hf, ← hlength]
    exact modify_concat _ _ f
  rw [table_withColumn h, table_withColumn h, Table.modifyColumn, hrequired, hlast]

/-- The last column of a table becomes one that may not be null. -/
theorem addConstraint_withColumn (h : t.uniques = []) (hrequired : c.required = true) :
    ((t.withColumn { c with required := false }).table id []).addConstraint
      (.notNull t.columns.length) = (t.withColumn c).table id [] := by
  rw [table_withColumn h, table_withColumn h, hrequired, Table.addConstraint]
  simp [ColumnDeclaration.column]

end TableDeclaration

/-! ## Columns -/

/-- The schema finds the sequences and the tables that are declared before the table at `id`, of
which none is taken for that table. -/
structure Schema.Finds (s : Schema) (d : Description) (sequences : Nat) (id : TableId) : Prop where
  sequence : ∀ q < sequences, ∃ found, s.sequenceNamed (d.sequenceName q) = .ok found ∧ found.id = q
  table : ∀ r < id, s.sameName (d.tableName r) (d.tableName id) = false ∧
    ∃ found, s.tableNamed (d.tableName r) = .ok found ∧ found.id = r

section Columns

variable {s : Schema} {d : Description} {t : TableDeclaration} {c : ColumnDeclaration}
  {id : TableId} {notices : List Notice} {sequences : Nat}

/-- Reading `NOT NULL` makes the column that was read before it required. -/
theorem readBody_required (ht : t.uniques = []) (rest : List Token) :
    readBody s ((t.withColumn { c with required := false }).draft id notices)
      (.column t.columns.length) (tokensAll c.requiredPhrases ++ rest) =
        readBody s ((t.withColumn c).draft id notices) (.column t.columns.length) rest := by
  rw [ColumnDeclaration.requiredPhrases]
  cases hrequired : c.required with
  | false =>
    have hc : { c with required := false } = c := by rw [← hrequired]
    rw [hc]
    rfl
  | true =>
    refine readBody_modifier rfl ?_
    have htable : ((t.withColumn { c with required := false }).table id []).addConstraint
        (.notNull t.columns.length) = (t.withColumn c).table id [] :=
      TableDeclaration.addConstraint_withColumn ht hrequired
    have huses : (t.withColumn { c with required := false }).uses = (t.withColumn c).uses := by
      rw [TableDeclaration.uses_withColumn, TableDeclaration.uses_withColumn]
    rw [TableDeclaration.draft, TableDeclaration.draft, ← htable, ← huses]
    rfl

/-- The token of a declared default is read as that default. -/
theorem readDefaultValue_phrase {v : DefaultDeclaration} (hs : s.Finds d sequences id)
    (hv : v.Valid sequences) : ∃ token, (v.phrase d).tokens = [token] ∧
      unwrapDefault token = .ok token ∧ readDefaultValue s token = .ok v.value := by
  cases v with
  | null => exact ⟨.keyword "NULL", rfl, rfl, rfl⟩
  | literal v =>
    obtain ⟨hfloat, hnull⟩ := hv
    have hread : readLiteral "default value" v.token = .ok v := by
      rw [readLiteral, literal?_token hfloat]
    refine ⟨v.token, rfl, ?_, ?_⟩
    · cases v <;> rfl
    · cases v with
      | null => cases hnull
      | bool b => cases b <;> rfl
      | float x => cases hfloat
      | int n =>
        show DefaultValue.literal <$> readLiteral "default value" (Value.int n).token = _
        rw [hread]
        rfl
      | text s =>
        show DefaultValue.literal <$> readLiteral "default value" (Value.text s).token = _
        rw [hread]
        rfl
  | next q =>
    obtain ⟨found, hfound, rfl⟩ := hs.sequence q hv
    have hcall (token : Token) (raw : String) : readCall "default value" token
        [.identifier [.name "nextval"], .paren [.string raw]] = .ok ("nextval", [.string raw]) :=
      rfl
    have hword : sameIgnoringAsciiCase "nextval" "nextval" = true := by
      rw [sameIgnoringAsciiCase, beq_self_eq_true]
    have hname : readString (Value.text (d.sequenceName found.id)).literal =
        .ok (d.sequenceName found.id) := by
      rw [readString, Value.literal, unquote?_enclose]
    refine ⟨.call [.identifier [.name "nextval"],
      .paren [.string (Value.text (d.sequenceName found.id)).literal]], rfl, rfl, ?_⟩
    simp only [readDefaultValue, hcall, hword, readSequenceName, hname, hfound, fromCatalog, bind,
      Except.bind, if_true]
    rfl

/-- A clause that changes the last column, other than that it may not be null. -/
theorem draft_withColumn (c c' : ColumnDeclaration) (ht : t.uniques = []) (f : Column → Column)
    (hf : f (c.column id t.columns.length) = c'.column id t.columns.length)
    (hrequired : c'.required = c.required) (notices : List Notice) :
    (t.withColumn c').draft id notices =
      ⟨((t.withColumn c).table id []).modifyColumn t.columns.length f, (t.withColumn c').uses,
        notices⟩ := by
  rw [TableDeclaration.draft, TableDeclaration.modifyColumn_withColumn ht f hf hrequired]

/-- Reading a default gives it to the column that was read before it, and its sequence a user. -/
theorem readBody_default (hs : s.Finds d sequences id) (ht : t.uniques = [])
    (hc : ∀ v ∈ c.default, v.Valid sequences) (rest : List Token) :
    readBody s ((t.withColumn { c with default := none }).draft id notices)
      (.column t.columns.length) (tokensAll (c.defaultPhrases d) ++ rest) =
        readBody s ((t.withColumn c).draft id notices) (.column t.columns.length) rest := by
  rw [ColumnDeclaration.defaultPhrases]
  cases hdefault : c.default with
  | none =>
    have hc : { c with default := none } = c := by rw [← hdefault]
    rw [hc]
    rfl
  | some v =>
    obtain ⟨token, htoken, hunwrap, hread⟩ := readDefaultValue_phrase hs (hc v hdefault)
    have htokens : tokensAll (keywords ["DEFAULT"] ++ [v.phrase d]) =
        [.keyword "DEFAULT", token] := by
      rw [tokensAll_append, tokensAll, tokensAll, htoken]
      rfl
    have hdraft : ((t.withColumn { c with default := none }).draft id notices).setDefault
        t.columns.length v.value = (t.withColumn c).draft id notices := by
      have huses : (t.withColumn c).uses = t.uses ++
          (v.sequence?.map fun id => (id, t.columns.length)).toList := by
        rw [TableDeclaration.uses_withColumn, hdefault]
        rfl
      have hbefore : (t.withColumn { c with default := none }).uses = t.uses := by
        rw [TableDeclaration.uses_withColumn]
        exact List.append_nil _
      rw [draft_withColumn { c with default := none } c ht
        (fun c => { c with default := some v.value })
        (by simp [ColumnDeclaration.column, hdefault]) rfl notices, huses, TableDeclaration.draft,
        hbefore]
      cases v <;> rfl
    rw [htokens]
    refine readBody_modifier rfl ?_
    show (unwrapDefault token >>= fun single => readDefaultValue s single >>= fun value =>
      pure (Draft.setDefault _ _ value, rest)) = _
    rw [hunwrap]
    show (readDefaultValue s token >>= _) = _
    rw [hread, ← hdraft]
    rfl

/-- A reference leads to the table that it is declared to, be it the one that is read. -/
theorem findTable_draft (hs : s.Finds d sequences id) (hname : t.name = d.tableName id)
    {r : TableId} (hr : r ≤ id) (notices : List Notice) :
    ∃ found, (t.draft id notices).findTable s (d.tableName r) = .ok found ∧ found.id = r := by
  unfold Draft.findTable
  -- The table that is read is not in the schema yet: the draft answers to its name.
  rcases Nat.lt_or_eq_of_le hr with hr | rfl
  · obtain ⟨hother, found, hfound, hid⟩ := hs.table r hr
    have hown : s.sameName (d.tableName r) (t.draft id notices).table.name = false := by
      rw [← hother, ← hname]
      rfl
    rw [hown, hfound]
    exact ⟨found, rfl, hid⟩
  · have hown : s.sameName (d.tableName r) (t.draft r notices).table.name = true := by
      rw [← hname]
      exact s.dialect.sameName_refl t.name
    rw [hown]
    exact ⟨(t.draft r notices).table, rfl, rfl⟩

/-- Reading the name of a table makes the column refer to it, with notices or without. -/
theorem readBody_target {draft : Draft} {name : String} {target : Table}
    (hfind : draft.findTable s name = .ok target) (i : Nat) (rest : List Token) :
    ∃ added, readBody s draft (.column i)
        (.keyword "REFERENCES" :: .identifier [.name name] :: rest) =
      readBody s { draft with
        table := draft.table.modifyColumn i fun c => { c with references := some target.id }
        notices := draft.notices ++ added } (.column i) rest := by
  have htarget : readTarget (.identifier [.name name]) = .ok name := rfl
  have hread : ∃ added, readReference s draft i (.identifier [.name name] :: rest) =
      .ok ({ draft with
        table := draft.table.modifyColumn i fun c => { c with references := some target.id }
        notices := draft.notices ++ added }, rest) := by
    simp only [readReference, htarget, hfind, bind, Except.bind]
    exact ⟨_, rfl⟩
  obtain ⟨added, hread⟩ := hread
  have hmodifier : readModifier s draft i (.keyword "REFERENCES")
      (.identifier [.name name] :: rest) = _ := hread
  exact ⟨added, readBody_modifier rfl hmodifier⟩

/-- Reading `ON DELETE` gives the reference of the column its action. -/
theorem readBody_action (ht : t.uniques = []) {r : TableId} {action : DeleteAction}
    (hc : c.reference = some (r, some action)) (rest : List Token) :
    readBody s ((t.withColumn { c with reference := some (r, none) }).draft id notices)
      (.column t.columns.length) (tokensAll action.phrases ++ rest) =
        readBody s ((t.withColumn c).draft id notices) (.column t.columns.length) rest := by
  have hdraft : (t.withColumn c).draft id notices = _ :=
    draft_withColumn { c with reference := some (r, none) } c ht
      (fun c => { c with onDelete := some action }) (by simp [ColumnDeclaration.column, hc]) rfl
      notices
  have huses : (t.withColumn { c with reference := some (r, none) }).uses =
      (t.withColumn c).uses := by
    rw [TableDeclaration.uses_withColumn, TableDeclaration.uses_withColumn]
  rw [hdraft, ← huses]
  cases action <;> exact readBody_modifier rfl rfl

/-- Reading a reference with its action gives both to the column that was read before it. -/
theorem readBody_reference (hs : s.Finds d sequences id) (hname : t.name = d.tableName id)
    (ht : t.uniques = []) (hc : ∀ r ∈ c.reference, r.1 ≤ id) (rest : List Token) :
    ∃ notices', readBody s ((t.withColumn { c with reference := none }).draft id notices)
      (.column t.columns.length) (tokensAll (c.referencePhrases d) ++ rest) =
        readBody s ((t.withColumn c).draft id notices') (.column t.columns.length) rest := by
  rw [ColumnDeclaration.referencePhrases]
  cases hreference : c.reference with
  | none =>
    have hc : { c with reference := none } = c := by rw [← hreference]
    rw [hc]
    exact ⟨notices, rfl⟩
  | some r =>
    obtain ⟨r, action⟩ := r
    -- The target may bring up a notice about its key, which is of no concern to the table.
    have hown : (t.withColumn { c with reference := none }).name = d.tableName id := hname
    have hr : r ≤ id := hc (r, action) hreference
    obtain ⟨found, hfound, rfl⟩ := findTable_draft hs hown hr notices
    obtain ⟨added, hread⟩ := readBody_target hfound t.columns.length
      (tokensAll ((action.map DeleteAction.phrases).getD []) ++ rest)
    have htokens : tokensAll (keywords ["REFERENCES"] ++ [nameOf (d.tableName found.id)] ++
        (action.map DeleteAction.phrases).getD []) ++ rest =
          .keyword "REFERENCES" :: .identifier [.name (d.tableName found.id)] ::
            (tokensAll ((action.map DeleteAction.phrases).getD []) ++ rest) := by
      rw [tokensAll_append, List.append_assoc]
      rfl
    have hdraft : (t.withColumn { c with reference := some (found.id, none) }).draft id
        (notices ++ added) = _ :=
      draft_withColumn { c with reference := none } { c with reference := some (found.id, none) } ht
        (fun c => { c with references := some found.id }) (by simp [ColumnDeclaration.column]) rfl _
    have huses : (t.withColumn { c with reference := some (found.id, none) }).uses =
        (t.withColumn { c with reference := none }).uses := by
      rw [TableDeclaration.uses_withColumn, TableDeclaration.uses_withColumn]
    rw [huses] at hdraft
    refine ⟨notices ++ added, ?_⟩
    rw [htokens, hread]
    show readBody s ⟨((t.withColumn { c with reference := none }).table id []).modifyColumn
      t.columns.length fun c => { c with references := some found.id },
      (t.withColumn { c with reference := none }).uses, notices ++ added⟩ _ _ = _
    rw [← hdraft]
    cases action with
    | none =>
      have hc : { c with reference := some (found.id, none) } = c := by rw [← hreference]
      rw [hc]
      rfl
    | some action => exact readBody_action ht hreference rest

/-- Whether the tokens are at their end or go on with a comma. -/
def EndsItem (ts : List Token) : Prop := ∀ t ∈ ts.head?, t = .punctuation ','

/-- The type of a column ends before its clauses, whichever of them there are. -/
theorem endsType_clauses (d : Description) (c : ColumnDeclaration) {rest : List Token}
    (hrest : EndsItem rest) : EndsType (tokensAll c.requiredPhrases ++
      (tokensAll (c.defaultPhrases d) ++ (tokensAll (c.referencePhrases d) ++ rest))) := by
  have keyword {w : String} (hw : w ∈ ["NOT", "DEFAULT", "REFERENCES"]) (ts : List Token) :
      EndsType (.keyword w :: ts) := by
    rintro _ ⟨⟩
    exact .inr ⟨w, hw, rfl⟩
  rw [ColumnDeclaration.requiredPhrases, ColumnDeclaration.defaultPhrases,
    ColumnDeclaration.referencePhrases]
  cases c.required with
  | true => exact keyword (by simp) _
  | false =>
    cases c.default with
    | some v => exact keyword (by simp) _
    | none =>
      cases c.reference with
      | some r =>
        show EndsType (tokensAll (keywords ["REFERENCES"] ++ _ ++ _) ++ rest)
        rw [tokensAll_append, tokensAll_append, List.append_assoc, List.append_assoc]
        exact keyword (by simp) _
      | none => exact fun t ht => .inl (hrest t ht)

/-- The column that a definition begins with is added before its clauses are read. -/
theorem readBody_columnStart (ht : t.uniques = []) (hc : c.type.Valid)
    (hfresh : ∀ other ∈ t.columns, lower other.name ≠ lower c.name) {rest : List Token}
    (hrest : EndsType rest) :
    readBody s (t.draft id notices) .item
        (.identifier [.name c.name] :: (tokensAll c.type.phrases ++ rest)) =
      readBody s ((t.withColumn ⟨c.name, c.type, false, none, none⟩).draft id notices)
        (.column t.columns.length) rest := by
  have hadd : (t.table id []).addColumn c.name c.type.kept =
      .ok ((t.withColumn ⟨c.name, c.type, false, none, none⟩).table id []) := by
    have hfree : (t.table id []).hasColumn c.name = false := by
      rw [Table.hasColumn_eq_false]
      intro column hcolumn
      have hmem : column.name ∈ t.columns.map ColumnDeclaration.name := by
        rw [← TableDeclaration.names_table id []]
        exact List.mem_map_of_mem hcolumn
      obtain ⟨other, hother, hname⟩ := List.mem_map.1 hmem
      simpa [sameIgnoringCase, ← hname] using hfresh other hother
    have hlength : (t.table id []).columns.length = t.columns.length :=
      TableDeclaration.length_columns_table []
    rw [Table.addColumn, hfree, if_neg Bool.false_ne_true, TableDeclaration.table_withColumn ht,
      hlength]
    simp [ColumnDeclaration.column, TableDeclaration.table]
  have hstep : readBodyStep s (t.draft id notices) .item (.identifier [.name c.name])
      (tokensAll c.type.phrases ++ rest) =
        .ok ⟨(t.withColumn ⟨c.name, c.type, false, none, none⟩).draft id notices,
          some (.column t.columns.length), rest⟩ := by
    have hread := readColumnType_tokens hc hrest
    have hlength : (t.table id []).columns.length = t.columns.length :=
      TableDeclaration.length_columns_table []
    have huses : (t.withColumn ⟨c.name, c.type, false, none, none⟩).uses = t.uses := by
      rw [TableDeclaration.uses_withColumn]
      exact List.append_nil _
    show readColumnStart (t.draft id notices) c.name _ = _
    simp only [readColumnStart, TableDeclaration.draft, hread, hadd, hlength, huses, fromCatalog,
      Draft.withTable, bind, Except.bind, pure, Except.pure]
  rw [readBody_cons, hstep]

/-- Reading the definition of a column adds that column to the table. -/
theorem readBody_column (hs : s.Finds d sequences id) (hname : t.name = d.tableName id)
    (ht : t.uniques = []) (hc : c.Valid sequences id)
    (hfresh : ∀ other ∈ t.columns, lower other.name ≠ lower c.name) {rest : List Token}
    (hrest : EndsItem rest) (notices : List Notice) :
    ∃ notices', readBody s (t.draft id notices) .item (tokensAll (c.phrases d) ++ rest) =
      readBody s ((t.withColumn c).draft id notices') (.column t.columns.length) rest := by
  have htokens : tokensAll (c.phrases d) ++ rest = .identifier [.name c.name] ::
      (tokensAll c.type.phrases ++ (tokensAll c.requiredPhrases ++
        (tokensAll (c.defaultPhrases d) ++ (tokensAll (c.referencePhrases d) ++ rest)))) := by
    simp [ColumnDeclaration.phrases, tokensAll]
  rw [htokens, readBody_columnStart ht hc.type hfresh (endsType_clauses d c hrest)]
  -- The clauses are read one after the other, each on the column without those after it.
  obtain ⟨notices', hreference⟩ := readBody_reference hs hname ht hc.reference rest
  refine ⟨notices', ?_⟩
  rw [← hreference]
  exact (readBody_required (c := { c with default := none, reference := none }) ht _).trans
    (readBody_default (c := { c with reference := none }) hs ht hc.default _)

end Columns

end SqlCatalog

import SqlCatalog.Proofs.Catalog.TableGrammar
import SqlCatalog.Proofs.Token.Comments

/-!
# Comments make no difference

What is compiled does not depend on the comments of tables, and only these depend on the comments of
a source. So a comment between tokens that are not read together changes nothing else. A comment
between a name and the parenthesis after it does: what was a call is none any more.

## Main definitions

* `Schema.withoutComments` is a schema without the comments of its tables.
* `Compiling.Carries` says that what is done from one schema is done from another one.

## Main statements

* `carries_compileStatement`: statements that are the same but for comments.
* `compileSource_commented`: sources that are the same but for comments.
-/

namespace SqlCatalog

/-! ## Schemas without comments -/

/-- The table without its comment. -/
def Table.withoutComment (t : Table) : Table := { t with comment := "" }

/-- The schema without the comments of its tables. -/
def Schema.withoutComments (s : Schema) : Schema :=
  { s with tables := s.tables.map Table.withoutComment }

section WithoutComments

variable {s t : Schema} {u v : Table} {name : String}

/-- What commutes with erasing something is done for all that is the same after erasing. -/
theorem exists_ok_of_erased {ε α β : Type} {f : α → Except ε β} {erase : α → α} {erase' : β → β}
    (hf : ∀ a, f (erase a) = erase' <$> f a) {a a' : α} (hsame : erase a' = erase a) {b : β}
    (hb : f a = .ok b) : ∃ b', f a' = .ok b' ∧ erase' b' = erase' b := by
  have hmap : erase' <$> f a' = .ok (erase' b) := by
    rw [← hf, hsame, hf, hb]
    rfl
  exact map_eq_ok.1 hmap

theorem find?_withoutComments (s : Schema) (name : String) :
    (s.withoutComments.tables.find? fun t => s.withoutComments.sameName t.name name) =
      (s.tables.find? fun t => s.sameName t.name name).map Table.withoutComment := by
  rw [Schema.withoutComments, List.find?_map]
  rfl

theorem tableNamed_withoutComments (name : String) (s : Schema) :
    s.withoutComments.tableNamed name = Table.withoutComment <$> s.tableNamed name := by
  rw [Schema.tableNamed, find?_withoutComments, Schema.tableNamed]
  cases s.tables.find? fun t => s.sameName t.name name <;> rfl

theorem columnIndexes_of_withoutComment (h : v.withoutComment = u.withoutComment)
    (names : List String) : v.columnIndexes names = u.columnIndexes names := by
  have unchanged (t : Table) : t.columnIndexes names = t.withoutComment.columnIndexes names := rfl
  rw [unchanged v, unchanged u, h]

/-- Whether a table takes a row does not depend on its comment. -/
theorem addRow_withoutComment (values : List Value) (t : Table) :
    t.withoutComment.addRow values = Table.withoutComment <$> t.addRow values := by
  rw [Table.addRow, Table.addRow]
  by_cases hlength : t.columns.length < values.length
  · rw [if_pos hlength, if_pos (show t.withoutComment.columns.length < values.length from hlength)]
    rfl
  · rw [if_neg hlength,
      if_neg (show ¬ t.withoutComment.columns.length < values.length from hlength)]
    rfl

theorem addSequence_withoutComments (name : String) (s : Schema) :
    s.withoutComments.addSequence name = Schema.withoutComments <$> s.addSequence name := by
  have hnamed : s.withoutComments.sequenceNamed name = s.sequenceNamed name := rfl
  rw [Schema.addSequence, Schema.addSequence, hnamed]
  cases s.sequenceNamed name <;> rfl

theorem addIndex_withoutComments (i : Index) (s : Schema) :
    s.withoutComments.addIndex i = Schema.withoutComments <$> s.addIndex i := by
  have hnamed : s.withoutComments.indexNamed i.name = s.indexNamed i.name := rfl
  rw [Schema.addIndex, Schema.addIndex, hnamed]
  cases s.indexNamed i.name <;> rfl

theorem withoutComments_modifyTable (s : Schema) (id : TableId) (u : Table) :
    (s.modifyTable id fun _ => u).withoutComments =
      s.withoutComments.modifyTable id fun _ => u.withoutComment := by
  refine congrArg (fun tables => { s with tables := tables }) (List.ext_getElem? fun i => ?_)
  by_cases hi : id = i
  · subst hi
    simp [Schema.modifyTable, Schema.withoutComments, Function.comp_def]
  · simp [Schema.modifyTable, Schema.withoutComments, hi]

/-! ### Table definitions -/

theorem targetId_withoutComments (s : Schema) (own name : String) :
    s.withoutComments.targetId own name = s.targetId own name := by
  rw [Schema.targetId, find?_withoutComments, Schema.targetId, Option.map_map]
  have hlength : s.withoutComments.tables.length = s.tables.length := List.length_map _
  rw [hlength]
  rfl

/-- Whether a table definition is valid is no matter of comments. -/
theorem valid_withoutComments {x : TableSyntax} : x.Valid s.withoutComments ↔ x.Valid s := by
  have htarget (own name : String) :
      s.withoutComments.HasTarget own name ↔ s.HasTarget own name := by
    simp [Schema.HasTarget, Schema.withoutComments, Schema.sameName, Table.withoutComment]
  have hfree : (∀ u ∈ s.withoutComments.tables, s.withoutComments.sameName u.name x.name = false) ↔
      ∀ u ∈ s.tables, s.sameName u.name x.name = false := by
    simp [Schema.withoutComments, Schema.sameName, Table.withoutComment]
  constructor
  · exact fun h => ⟨hfree.1 h.free, h.distinct, h.types, h.key, h.columns, h.sequences,
      fun y hy r hr => (htarget _ _).1 (h.targets y hy r hr)⟩
  · exact fun h => ⟨hfree.2 h.free, h.distinct, h.types, h.key, h.columns, h.sequences,
      fun y hy r hr => (htarget _ _).2 (h.targets y hy r hr)⟩

/-- The table that is defined is no matter of comments either. -/
theorem withoutComments_addedTo (x : TableSyntax) (s : Schema) (comment : String) :
    (x.addedTo s comment).withoutComments = x.addedTo s.withoutComments "" := by
  have hlength : s.withoutComments.tables.length = s.tables.length := List.length_map _
  have hcolumn (i : Nat) (c : ColumnSyntax) :
      c.column s.withoutComments x.name i = c.column s x.name i := by
    rw [ColumnSyntax.column, ColumnSyntax.column, hlength]
    simp only [targetId_withoutComments]
    rfl
  have htable : x.table s.withoutComments "" = (x.table s comment).withoutComment := by
    rw [TableSyntax.table, TableSyntax.tableOver, hlength]
    simp only [hcolumn]
    rfl
  rw [TableSyntax.addedTo, TableSyntax.addedTo, htable, hlength, Schema.withoutComments,
    List.map_append, List.map_singleton]
  rfl

end WithoutComments

/-! ## The same from another schema -/

namespace Compiling

variable {α β : Type} {s t s' t' : Schema}

/-- Whether `y` is done from `t` if `x` is done from `s`, and gives the same, but for comments. -/
def Carries (x y : Compiling α) (s t : Schema) : Prop :=
  ∀ a s', x.into s = (.ok a, s') →
    ∃ t', y.into t = (.ok a, t') ∧ t'.withoutComments = s'.withoutComments

theorem Carries.trans {x y z : Compiling α} (h : x.Carries y s t) (h' : y.Carries z t t) :
    x.Carries z s t := by
  intro a s' hx
  obtain ⟨t', hy, ht'⟩ := h a s' hx
  obtain ⟨t'', hz, ht''⟩ := h' a t' hy
  exact ⟨t'', hz, ht''.trans ht'⟩

theorem Carries.pure {a : α} (h : t.withoutComments = s.withoutComments) :
    Carries (Pure.pure a) (Pure.pure a) s t := by
  rintro _ _ ⟨⟩
  exact ⟨t, rfl, h⟩

theorem Carries.get {f g : Schema → Compiling β} (h : (f s).Carries (g t) s t) :
    Carries (MonadState.get >>= f) (MonadState.get >>= g) s t := h

theorem Carries.set (h : t'.withoutComments = s'.withoutComments) :
    Carries (MonadState.set s') (MonadState.set t') s t := by
  rintro _ _ ⟨⟩
  exact ⟨t', rfl, h⟩

/-- A first part that is carried, and what is carried after it from schemas that differ in
comments only, are carried together. -/
theorem Carries.bind {x y : Compiling α} {f g : α → Compiling β} (h : x.Carries y s t)
    (hf : ∀ a s' t', t'.withoutComments = s'.withoutComments → (f a).Carries (g a) s' t') :
    (x >>= f).Carries (y >>= g) s t := by
  intro b s'' hx
  rw [into_bind] at hx
  rcases hfirst : x.into s with ⟨e | a, s'⟩ <;> rw [hfirst] at hx
  · cases hx
  · obtain ⟨t', hy, ht'⟩ := h a s' hfirst
    rw [into_bind, hy]
    exact hf a s' t' ht' b s'' hx

/-- What is read gives the same in both cases, or at least lets them go on in the same way. -/
theorem Carries.read {γ : Type} {x : Compile α} {y : Compile γ} {f : α → Compiling β}
    {g : γ → Compiling β} (h : ∀ a, x = .ok a → ∃ b, y = .ok b ∧ (f a).Carries (g b) s t) :
    Carries (liftM x >>= f) (liftM y >>= g) s t := by
  intro b s' hx
  cases x with
  | error e => cases hx
  | ok a =>
    obtain ⟨c, rfl, hcarries⟩ := h a rfl
    exact hcarries b s' hx

end Compiling

open Compiling (Carries)

/-! ## Statements -/

section Statements

variable {s t : Schema} {statement statement' : Statement}

/-- A table definition that differs in comments is accepted just as well and makes the same table.
-/
theorem carries_compileTable (hs : t.withoutComments = s.withoutComments)
    (h : Token.flatten statement = Token.flatten statement') :
    (compileTable statement).Carries (compileTable statement') s t := by
  intro id s' hdone
  obtain ⟨x, hspelled, hvalid, rfl, rfl⟩ := spelled_of_into_compileTable hdone
  rw [h] at hspelled
  rw [← valid_withoutComments, ← hs, valid_withoutComments] at hvalid
  have hlength : t.tables.length = s.tables.length := by
    simpa [Schema.withoutComments] using congrArg (fun s => s.tables.length) hs
  refine ⟨_, (into_compileTable_of_spelled hspelled hvalid).trans (by rw [hlength]), ?_⟩
  rw [withoutComments_addedTo, withoutComments_addedTo, hs]

theorem carries_compileSequence (hs : t.withoutComments = s.withoutComments)
    (h : Token.flatten statement = Token.flatten statement') :
    (compileSequence statement).Carries (compileSequence statement') s t := by
  refine Carries.get (Carries.read fun name hname => ⟨name, by rw [← h, hname], ?_⟩)
  refine Carries.read fun s' hs' => ?_
  obtain ⟨t', ht', hsame⟩ := exists_ok_of_erased (f := fun s => s.addSequence name)
    (addSequence_withoutComments name) hs (fromCatalog_eq_ok.1 hs')
  have hlength : t.sequences.length = s.sequences.length :=
    (congrArg (fun s => s.sequences.length) hs :)
  refine ⟨t', fromCatalog_eq_ok.2 ht', ?_⟩
  rw [hlength]
  exact (Carries.set hsame).bind fun _ _ _ => .pure

theorem carries_compileIndex (hs : t.withoutComments = s.withoutComments)
    (h : Token.flatten statement = Token.flatten statement') :
    (compileIndex statement).Carries (compileIndex statement') s t := by
  refine Carries.get (Carries.read fun head hhead => ⟨head, by rw [← h, hhead], ?_⟩)
  refine Carries.read fun u hu => ?_
  obtain ⟨v, hv, hsame⟩ := exists_ok_of_erased (f := fun s => s.tableNamed head.table)
    (tableNamed_withoutComments head.table) hs (fromCatalog_eq_ok.1 hu)
  refine ⟨v, fromCatalog_eq_ok.2 hv, Carries.read fun names hnames => ⟨names, hnames, ?_⟩⟩
  refine Carries.read fun columns hcolumns => ⟨columns, ?_, Carries.read fun s' hs' => ?_⟩
  · rw [columnIndexes_of_withoutComment hsame, hcolumns]
  · have hid : v.id = u.id := (congrArg Table.id hsame :)
    obtain ⟨t', ht', hsame'⟩ := exists_ok_of_erased
      (f := fun s => s.addIndex ⟨head.name, u.id, head.unique, head.method, columns⟩)
      (addIndex_withoutComments _) hs (fromCatalog_eq_ok.1 hs')
    rw [hid]
    exact ⟨t', fromCatalog_eq_ok.2 ht', .set hsame'⟩

theorem carries_compileSeedRow (hs : t.withoutComments = s.withoutComments)
    (h : Token.flatten statement = Token.flatten statement') :
    (compileSeedRow statement).Carries (compileSeedRow statement') s t := by
  refine Carries.get (Carries.read fun row hrow => ⟨row, by rw [← h, hrow], ?_⟩)
  refine Carries.read fun u hu => ?_
  obtain ⟨v, hv, hsame⟩ := exists_ok_of_erased (f := fun s => s.tableNamed row.table)
    (tableNamed_withoutComments row.table) hs (fromCatalog_eq_ok.1 hu)
  refine ⟨v, fromCatalog_eq_ok.2 hv, Carries.read fun u' hu' => ?_⟩
  obtain ⟨v', hv', hsame'⟩ :=
    exists_ok_of_erased (f := fun t => t.addRow row.values) (addRow_withoutComment row.values) hsame
      (fromCatalog_eq_ok.1 hu')
  refine ⟨v', fromCatalog_eq_ok.2 hv', Carries.set ?_⟩
  have hid : v.id = u.id := (congrArg Table.id hsame :)
  rw [withoutComments_modifyTable, withoutComments_modifyTable, hs, hid, hsame']

/-- Statements that are the same but for comments are of the same kind. -/
theorem kind_of_sameTokens {kind : StatementKind} (h : SameTokens statement statement')
    (hof : StatementKind.of statement = .ok kind) : StatementKind.of statement' = .ok kind := by
  rw [SameTokens] at h
  rw [StatementKind.of] at hof ⊢
  generalize statement.filter Token.isSignificant = ts at h hof
  generalize statement'.filter Token.isSignificant = us at h
  cases h with
  | nil => exact hof
  | @cons first first' rest rest' hfirst hrest =>
    dsimp only at hof ⊢
    rw [hfirst.keyword, hfirst.keyword] at hof
    split at hof
    · rename_i hcreate
      rw [if_pos hcreate]
      cases hrest with
      | nil => cases hof
      | cons hsecond _ =>
        dsimp only at hof ⊢
        rw [hsecond.keyword, hsecond.keyword, hsecond.keyword, hsecond.keyword] at hof
        split_ifs at hof ⊢
        · exact hof
        · exact hof
        · exact hof
        · cases hof
    · rename_i hcreate
      rw [if_neg hcreate]
      split_ifs at hof ⊢
      exact hof

/-- Statements that are the same but for comments do the same but for comments. -/
theorem carries_compileStatement (hs : t.withoutComments = s.withoutComments)
    (h : SameTokens statement statement') :
    (compileStatement statement).Carries (compileStatement statement') s t := by
  intro a s' hdone
  rw [into_compileStatement] at hdone ⊢
  cases hof : StatementKind.of statement with
  | error e => rw [hof] at hdone; cases hdone
  | ok kind =>
    rw [hof] at hdone
    rw [kind_of_sameTokens h hof]
    cases kind with
    | table => exact ((carries_compileTable hs h.flatten_eq).bind fun _ _ _ => .pure) a s' hdone
    | sequence =>
      exact ((carries_compileSequence hs h.flatten_eq).bind fun _ _ _ => .pure) a s' hdone
    | index => exact carries_compileIndex hs h.flatten_eq a s' hdone
    | seedRow => exact carries_compileSeedRow hs h.flatten_eq a s' hdone
    | blank => exact Carries.pure hs a s' hdone

end Statements

/-! ## Scripts and sources -/

section Scripts

variable {s t : Schema} {script script' : List Statement}

/-- A script that differs in comments is accepted just as well and makes the same schema. -/
theorem carries_compileScript (hs : t.withoutComments = s.withoutComments)
    (h : List.Forall₂ SameTokens script script') :
    (compileScript script).Carries (compileScript script') s t := by
  induction h generalizing s t with
  | nil => exact .pure hs
  | cons hstatement _ ih =>
    exact (carries_compileStatement hs hstatement).bind fun _ _ _ hs' => ih hs'

/-- A statement that is nothing but comments changes nothing. -/
theorem into_compileStatement_blank {statement : Statement}
    (h : statement.filter Token.isSignificant = []) :
    (compileStatement statement).into s = (.ok ⟨⟩, s) := by
  have hof : StatementKind.of statement = .ok .blank := by rw [StatementKind.of, h]
  rw [into_compileStatement, hof]
  rfl

/-- A script does the same without its comments. -/
theorem carries_significant (hs : t.withoutComments = s.withoutComments) (script : List Statement) :
    (compileScript script).Carries (compileScript (significant script)) s t ∧
      (compileScript (significant script)).Carries (compileScript script) s t := by
  induction script generalizing s t with
  | nil => exact ⟨.pure hs, .pure hs⟩
  | cons statement script ih =>
    rw [significant_cons]
    split
    · rename_i hempty
      have hblank := List.isEmpty_iff.1 hempty
      have hcons (s : Schema) :
          (compileScript (statement :: script)).into s = (compileScript script).into s := by
        rw [into_compileScript_cons, into_compileStatement_blank hblank]
      refine ⟨fun a s' hdone => ?_, fun a s' hdone => ?_⟩
      · rw [hcons] at hdone
        exact (ih hs).1 a s' hdone
      · rw [hcons]
        exact (ih hs).2 a s' hdone
    · obtain ⟨hfrom, hto⟩ := SameTokens.filter statement
      exact ⟨(carries_compileStatement hs hfrom).bind fun _ _ _ hs' => (ih hs').1,
        (carries_compileStatement hs hto).bind fun _ _ _ hs' => (ih hs').2⟩

/-- A source with comments more is accepted just as well and makes the same schema. -/
theorem carries_compileSource {source source' : String} (h : Commented source source')
    (hs : t.withoutComments = s.withoutComments) :
    (compileSource source).Carries (compileSource source') s t := by
  intro a s' hdone
  rw [into_compileSource] at hdone ⊢
  cases hscript : statements source with
  | error e => rw [hscript] at hdone; cases hdone
  | ok script =>
    rw [hscript] at hdone
    obtain ⟨script', hscript', hsame⟩ := statements_commented h hscript
    rw [hscript']
    have hcarries := ((carries_significant hs script).1.trans
      (carries_compileScript rfl hsame)).trans (carries_significant rfl script').2
    exact hcarries a s' hdone

/-- A source with comments between tokens that are not read together is compiled if it is compiled
without them, to the same schema but for the comments of tables. -/
theorem compileSource_commented {source source' : String}
    (h : Relation.ReflTransGen Commented source source')
    (hdone : (compileSource source).into s = (.ok ⟨⟩, t)) :
    ∃ t', (compileSource source').into s = (.ok ⟨⟩, t') ∧
      t'.withoutComments = t.withoutComments := by
  induction h with
  | refl => exact ⟨t, hdone, rfl⟩
  | tail _ hcommented ih =>
    obtain ⟨t₁, hdone₁, ht₁⟩ := ih
    obtain ⟨t₂, hdone₂, ht₂⟩ := carries_compileSource hcommented rfl ⟨⟩ t₁ hdone₁
    exact ⟨t₂, hdone₂, ht₂.trans ht₁⟩

end Scripts

/-- A block and a line of comment in a table definition. -/
theorem compileSource_commented_lines :
    ∃ s t, (compileSource "create\ntable t (x integer\nnot null)").into (.empty "" .standard) =
        (.ok ⟨⟩, s) ∧
      (compileSource "create\n/* a */table t (x integer\n-- b\nnot null)").into
        (.empty "" .standard) = (.ok ⟨⟩, t) ∧ t.withoutComments = s.withoutComments := by
  have hblock : IsComment "/* a */".toList := by
    have h : IsComment ('/' :: '*' :: ([' ', 'a', ' '] ++ ['*', '/'])) := .block (by decide +kernel)
    simpa using h
  have hline : IsComment "-- b\n".toList := by
    have h : IsComment ('-' :: '-' :: ([' ', 'b'] ++ ['\n'])) := .line (by decide)
    simpa using h
  have hfirst : Commented "create\ntable t (x integer\nnot null)"
      "create\n/* a */table t (x integer\nnot null)" := by
    simpa using commented_line "TABLE" (a := "create") (b := "table t (x integer\nnot null)")
      (by decide +kernel) (by decide +kernel) hblock
  have hsecond : Commented "create\n/* a */table t (x integer\nnot null)"
      "create\n/* a */table t (x integer\n-- b\nnot null)" := by
    simpa using commented_line "NOT" (a := "create\n/* a */table t (x integer") (b := "not null)")
      (by decide +kernel) (by decide +kernel) hline
  have hok : ((compileSource "create\ntable t (x integer\nnot null)").into
      (.empty "" .standard)).1.isOk = true := by decide +kernel
  rcases hdone : (compileSource "create\ntable t (x integer\nnot null)").into
      (.empty "" .standard) with ⟨e | ⟨⟩, s⟩
  · rw [hdone] at hok
    cases hok
  · obtain ⟨t, hdone', hsame⟩ := compileSource_commented (.tail (.single hfirst) hsecond) hdone
    exact ⟨s, t, rfl, hdone', hsame⟩

/-- A line of comment between the table of an index and the columns: what was a call is none any
more, and the definition is refused. -/
theorem commented_columns_refused :
    (∃ ts us, ts ≠ [] ∧ us ≠ [] ∧
        CommentAt "create table t (x integer);\ncreate index i on t\n(x)"
          "create table t (x integer);\ncreate index i on t\n-- of t\n(x)" ts us) ∧
      ((compileSource "create table t (x integer);\ncreate index i on t\n(x)").into
        (.empty "" .standard)).1.isOk = true ∧
      ((compileSource "create table t (x integer);\ncreate index i on t\n-- of t\n(x)").into
        (.empty "" .standard)).1.isOk = false := by
  have hcomment : IsComment "-- of t\n".toList := by
    have h : IsComment ('-' :: '-' :: ([' ', 'o', 'f', ' ', 't'] ++ ['\n'])) := .line (by decide)
    simpa using h
  obtain ⟨ts, hts, hne⟩ := exists_eq_ok_of_any (p := fun ts => !ts.isEmpty)
    (x := tokenize "create table t (x integer);\ncreate index i on t") (by decide +kernel)
  obtain ⟨us, hus, hne'⟩ := exists_eq_ok_of_any (p := fun us => !us.isEmpty)
    (x := tokenize "(x)") (by decide +kernel)
  obtain ⟨ts', hends, hline⟩ := commentAt_line hts hus (by decide) hcomment
  refine ⟨⟨ts', us, hends.ne_nil (by simpa using hne), by simpa using hne', by simpa using hline⟩,
    ?_, ?_⟩
  · decide +kernel
  · decide +kernel

end SqlCatalog

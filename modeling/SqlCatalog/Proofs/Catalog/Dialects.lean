import Mathlib.Data.List.Find
import SqlCatalog.Proofs.Catalog.Distinct
import SqlCatalog.Proofs.Catalog.Transport
import SqlCatalog.Proofs.Definition.Drafts

/-!
# Dialects and short names

The dialect of a schema decides how much of a name counts, and which notices are given. Names of at
most thirty characters count whole in every dialect. So as long as the names of tables, sequences
and indexes that are declared or looked up are short, compiling does the same in every dialect.

## Main definitions

* `IsShort` says that a name counts whole.
* `Schema.statementNames` and `Schema.sourceNames` are the names that are declared or looked up.
* `Schema.inDialect` is the same schema in another dialect.

## Main statements

* `readBody_inDialect`: the body of a table definition is read in the same way, but for notices.
* `carries_compileStatement_inDialect`: a statement does the same.
* `compileSource_inDialect`: a source does the same from an empty schema.
-/

namespace SqlCatalog

/-! ## Short names -/

/-- Whether a name counts whole in every dialect: in lower case it has at most thirty characters. -/
def IsShort (name : String) : Prop := (lower name).length ≤ 30

instance (name : String) : Decidable (IsShort name) := inferInstanceAs (Decidable (_ ≤ _))

/-- In every dialect the key of a short name is the name in lower case. -/
theorem IsShort.identifierKey {name : String} (h : IsShort name) (d : Dialect) :
    d.identifierKey name = lower name := by
  have htake {most : Nat} (hmost : 30 ≤ most) :
      String.ofList ((lower name).toList.take most) = lower name := by
    rw [List.take_of_length_le (by rw [String.length_toList]; exact Nat.le_trans h hmost),
      String.ofList_toList]
  cases d with
  | postgres => exact htake (by decide)
  | oracle => exact htake (by decide)
  | sqlite => rfl

/-- Short names are the same in one dialect if they are in another one. -/
theorem IsShort.sameName {a b : String} (ha : IsShort a) (hb : IsShort b) (d d' : Dialect) :
    d'.sameName a b = d.sameName a b := by
  rw [Dialect.sameName, Dialect.sameName, ha.identifierKey, hb.identifierKey, ha.identifierKey,
    hb.identifierKey]

/-! ## Names that are declared or looked up -/

/-- The name of the sequence whose numbers a default takes. -/
def nextvalNames : Token → List String
  | .call parts =>
    match Token.callParts? parts with
    | some (name, arguments) =>
      if sameIgnoringAsciiCase name "nextval" then (readSequenceName arguments).toOption.toList
      else []
    | none => []
  | _ => []

/-- The names that the clause of a column beginning with `t` looks up. -/
def clauseNames (t : Token) : List Token → List String
  | [] => []
  | u :: _ =>
    if t.isKeyword "DEFAULT" then (unwrapDefault u).toOption.toList.flatMap nextvalNames
    else if t.isKeyword "REFERENCES" then (readTarget u).toOption.toList
    else []

/-- The names that a part of a body looks up. -/
def BodyPlace.names (t : Token) (ts : List Token) : BodyPlace → List String
  | item => []
  | column _ => clauseNames t ts

/-- The names that a body looks up, as far as it is read. -/
def bodyNames (s : Schema) (d : Draft) (place : BodyPlace) (ts : List Token) : List String :=
  match ts with
  | [] => []
  | t :: ts =>
    place.names t ts ++
      match _h : readBodyStep s d place t ts with
      | .error _ => []
      | .ok step =>
        match step.next with
        | none => []
        | some place => bodyNames s step.draft place step.rest
termination_by ts.length
decreasing_by exact Nat.lt_succ_of_le (length_of_readBodyStep _h)

/-- The names of a body are those of its first part, then those of what is read after it. -/
theorem bodyNames_cons (s : Schema) (d : Draft) (place : BodyPlace) (t : Token) (ts : List Token) :
    bodyNames s d place (t :: ts) =
      place.names t ts ++
        match readBodyStep s d place t ts with
        | .error _ => []
        | .ok step =>
          match step.next with
          | none => []
          | some place => bodyNames s step.draft place step.rest := by
  rw [bodyNames]
  split <;> simp only [*]

namespace Schema

variable (s : Schema)

/-- The name of the table that is defined, and the names that its body looks up. -/
def tableNames (statement : Statement) : List String :=
  match readTableHead (Token.flatten statement) with
  | .ok (name, body) =>
    name ::
      match s.freshTable name with
      | .ok _ => bodyNames s (.initial s name (leadingComment statement)) .item body
      | .error _ => []
  | .error _ => []

/-- The names of tables, sequences and indexes that a statement declares or looks up. -/
def statementNames (statement : Statement) : List String :=
  let ts := Token.flatten statement
  match StatementKind.of statement with
  | .ok .table => s.tableNames statement
  | .ok .sequence => (readSequenceDefinition ts).toOption.toList
  | .ok .index => (readIndexHead ts).toOption.toList.flatMap fun head => [head.table, head.name]
  | .ok .seedRow => (readSeedRow ts).toOption.toList.map SeedRowDefinition.table
  | .ok .blank | .error _ => []

/-- The names that statements declare or look up, up to the first that is refused. -/
def scriptNames (s : Schema) : List Statement → List String
  | [] => []
  | statement :: rest =>
    s.statementNames statement ++
      match (compileStatement statement).into s with
      | (.ok _, s) => scriptNames s rest
      | (.error _, _) => []

/-- The names that a source declares or looks up, up to the first statement that is refused. -/
def sourceNames (source : String) : List String :=
  match statements source with
  | .ok script => s.scriptNames script
  | .error _ => []

end Schema

/-! ## The same schema in another dialect -/

/-- The same schema in the given dialect. -/
def Schema.inDialect (d : Dialect) (s : Schema) : Schema := { s with dialect := d }

/-- Whether all names of a schema are short. -/
structure Schema.IsShort (s : Schema) : Prop where
  tables : ∀ t ∈ s.tables, SqlCatalog.IsShort t.name
  sequences : ∀ q ∈ s.sequences, SqlCatalog.IsShort q.name
  indexes : ∀ i ∈ s.indexes, SqlCatalog.IsShort i.name

namespace Schema.IsShort

variable {s : Schema} {name : String} (h : s.IsShort) (hname : SqlCatalog.IsShort name)
  (d : Dialect)
include h hname

/-- A short name finds the same table in every dialect. -/
theorem tableNamed : (s.inDialect d).tableNamed name = s.tableNamed name := by
  have hfind : ((s.inDialect d).tables.find? fun t => (s.inDialect d).sameName t.name name) =
      s.tables.find? fun t => s.sameName t.name name :=
    List.find?_congr fun t ht => (h.tables t ht).sameName hname _ _
  rw [Schema.tableNamed, hfind, Schema.tableNamed]

theorem sequenceNamed : (s.inDialect d).sequenceNamed name = s.sequenceNamed name := by
  have hfind : ((s.inDialect d).sequences.find? fun q => (s.inDialect d).sameName q.name name) =
      s.sequences.find? fun q => s.sameName q.name name :=
    List.find?_congr fun q hq => (h.sequences q hq).sameName hname _ _
  rw [Schema.sequenceNamed, hfind, Schema.sequenceNamed]

theorem indexNamed : (s.inDialect d).indexNamed name = s.indexNamed name := by
  have hfind : ((s.inDialect d).indexes.find? fun i => (s.inDialect d).sameName i.name name) =
      s.indexes.find? fun i => s.sameName i.name name :=
    List.find?_congr fun i hi => (h.indexes i hi).sameName hname _ _
  rw [Schema.indexNamed, hfind, Schema.indexNamed]

end Schema.IsShort

/-! ## Drafts but for notices -/

/-- The draft without the notices that came up. -/
def Draft.quiet (d : Draft) : Draft := { d with notices := [] }

/-- The step without the notices of its draft. -/
def BodyStep.quiet (r : BodyStep) : BodyStep := { r with draft := r.draft.quiet }

/-- What a reader of a clause gives, but for notices. -/
abbrev quietly (x : Compile (Draft × List Token)) : Compile (Draft × List Token) :=
  Prod.map Draft.quiet id <$> x

/-- What a reader of a part of a body gives, but for notices. -/
abbrev quietStep (x : Compile BodyStep) : Compile BodyStep := BodyStep.quiet <$> x

/-- What follows a reader decides whether both together give the same. -/
theorem map_bind_congr {α β γ : Type} {F : β → γ} {x : Compile α} {f g : α → Compile β}
    (h : ∀ a, x = .ok a → F <$> g a = F <$> f a) : F <$> (x >>= g) = F <$> (x >>= f) := by
  cases x with
  | error e => rfl
  | ok a => exact h a rfl

section Readers

variable {s : Schema} (d : Draft) (ns : List Notice) (t : Token) (ts : List Token)

/-- The draft with other notices. -/
def Draft.withNotices : Draft := { d with notices := ns }

/-- Drafts that are the same but for notices differ in their notices. -/
theorem withNotices_of_quiet {d d' : Draft} (h : d'.quiet = d.quiet) :
    d' = d.withNotices d'.notices := by
  obtain ⟨table, users, notices⟩ := d
  obtain ⟨table', users', notices'⟩ := d'
  cases h
  rfl

/-! ### Readers that look up nothing -/

theorem setPrimaryKey_withNotices (columns : List Nat) :
    (d.withNotices ns).setPrimaryKey columns t =
      (·.withNotices ns) <$> d.setPrimaryKey columns t := by
  rw [Draft.setPrimaryKey, Draft.setPrimaryKey]
  by_cases h : d.table.primaryKey.isSome = true
  · rw [if_pos h, if_pos (show (d.withNotices ns).table.primaryKey.isSome = true from h)]
    rfl
  · rw [if_neg h, if_neg (show ¬ (d.withNotices ns).table.primaryKey.isSome = true from h)]
    rfl

/-- A primary key is made of the same columns, or there is one already. -/
theorem quietly_setPrimaryKey (columns : List Nat) :
    quietly (do return (← (d.withNotices ns).setPrimaryKey columns t, ts)) =
      quietly (do return (← d.setPrimaryKey columns t, ts)) := by
  rw [setPrimaryKey_withNotices]
  cases d.setPrimaryKey columns t <;> rfl

theorem readConstraintBody_withNotices (name : Option String) :
    quietly (readConstraintBody (d.withNotices ns) name t ts) =
      quietly (readConstraintBody d name t ts) := by
  unfold readConstraintBody
  split_ifs
  · refine map_bind_congr fun rest _ => map_bind_congr fun paren _ => ?_
    exact map_bind_congr fun columns _ => quietly_setPrimaryKey d ns t paren.2 columns
  · exact map_bind_congr fun paren _ => map_bind_congr fun columns _ => rfl
  · exact map_bind_congr fun paren _ => map_bind_congr fun expression _ => rfl
  · rfl

theorem afterConstraint_withNotices :
    quietStep (afterConstraint (d.withNotices ns) ts) = quietStep (afterConstraint d ts) := by
  cases ts with
  | nil => rfl
  | cons t ts =>
    rw [afterConstraint, afterConstraint]
    split_ifs <;> rfl

/-- What goes on after a clause in the same way gives the same. -/
theorem map_bind_of_quietly {α β : Type} {F : α → β} {x y : Compile (Draft × List Token)}
    {f g : Draft × List Token → Compile α} (h : quietly y = quietly x)
    (hf : ∀ d ns rest, F <$> g (d.withNotices ns, rest) = F <$> f (d, rest)) :
    F <$> (y >>= g) = F <$> (x >>= f) := by
  rcases x with e | ⟨d, rest⟩ <;> rcases y with e' | ⟨d', rest'⟩
  · obtain rfl : e' = e := by simpa [quietly] using h
    rfl
  · cases h
  · cases h
  · obtain ⟨hd, rfl⟩ : d'.quiet = d.quiet ∧ rest' = rest := by simpa [quietly] using h
    rw [withNotices_of_quiet hd]
    exact hf d _ rest'

/-- What an item begins with does not depend on the notices before it. -/
theorem readItem_withNotices :
    quietStep (readItem (d.withNotices ns) t ts) = quietStep (readItem d t ts) := by
  have start (name : String) :
      quietStep (readColumnStart (d.withNotices ns) name ts) =
        quietStep (readColumnStart d name ts) :=
    map_bind_congr fun type _ => map_bind_congr fun table _ => rfl
  have constraint :
      quietStep (readConstraint (d.withNotices ns) t ts) = quietStep (readConstraint d t ts) :=
    map_bind_congr fun head _ =>
      map_bind_of_quietly (readConstraintBody_withNotices d ns head.2.1 head.2.2 head.1)
        fun d ns rest => afterConstraint_withNotices d ns rest
  unfold readItem
  split
  · split
    · exact start _
    · rfl
  · split
    · exact start _
    · rfl
  · exact constraint

/-! ### Readers that look something up -/

variable (D : Dialect) (hs : s.IsShort)
include hs

/-- A default with a short name is read the same in every dialect. -/
theorem readDefaultValue_inDialect (h : ∀ name ∈ nextvalNames t, IsShort name) :
    readDefaultValue (s.inDialect D) t = readDefaultValue s t := by
  cases t with
  | call parts =>
    rw [readDefaultValue, readDefaultValue, readCall]
    rw [nextvalNames] at h
    cases hparts : Token.callParts? parts with
    | none => rfl
    | some call =>
      obtain ⟨name, arguments⟩ := call
      rw [hparts] at h
      dsimp only at h
      show (if sameIgnoringAsciiCase name "nextval" = true then _ else _) =
        if sameIgnoringAsciiCase name "nextval" = true then _ else _
      split_ifs at h ⊢
      · cases hsequence : readSequenceName arguments with
        | error e => rfl
        | ok sequence =>
          have hshort : IsShort sequence := h sequence (by simp [toOption_eq_some.2 hsequence])
          show (fromCatalog ((s.inDialect D).sequenceNamed sequence) >>= _) = _
          rw [hs.sequenceNamed hshort]
          rfl
      · rfl
  | _ => rfl

theorem readDefault_inDialect (i : Nat) (ht : t.isKeyword "DEFAULT" = true)
    (h : ∀ name ∈ clauseNames t ts, IsShort name) :
    quietly (readDefault (s.inDialect D) (d.withNotices ns) i ts) =
      quietly (readDefault s d i ts) := by
  cases ts with
  | nil => rfl
  | cons u ts =>
    refine map_bind_congr fun single hsingle => ?_
    have hshort : ∀ name ∈ nextvalNames single, IsShort name := by
      simpa [clauseNames, ht, toOption_eq_some.2 hsingle] using h
    rw [readDefaultValue_inDialect single D hs hshort]
    exact map_bind_congr fun value _ => rfl

omit hs in
/-- A reference with a short name finds the same table in every dialect, its own included. -/
theorem findTable_inDialect (hs : s.IsShort) (hd : IsShort d.table.name) {name : String}
    (hname : IsShort name) :
    (d.withNotices ns).findTable (s.inDialect D) name = d.findTable s name := by
  have hown : (s.inDialect D).sameName name d.table.name = s.sameName name d.table.name :=
    hname.sameName hd _ _
  rw [Draft.findTable, Draft.findTable, hs.tableNamed hname]
  show (if (s.inDialect D).sameName name d.table.name = true then _ else _) = _
  rw [hown]
  rfl

/-- A reference with a short name is read the same in every dialect, but for notices. -/
theorem readReference_inDialect (hd : IsShort d.table.name) (i : Nat)
    (ht : t.isKeyword "REFERENCES" = true) (h : ∀ name ∈ clauseNames t ts, IsShort name) :
    quietly (readReference (s.inDialect D) (d.withNotices ns) i ts) =
      quietly (readReference s d i ts) := by
  cases ts with
  | nil => rfl
  | cons u ts =>
    have hdefault : t.isKeyword "DEFAULT" = false := isKeyword_eq_false ht (by decide +kernel)
    refine map_bind_congr fun name hname => ?_
    have hshort : IsShort name := h name (by
      simp [clauseNames, ht, hdefault, toOption_eq_some.2 hname])
    rw [findTable_inDialect d ns D hs hd hshort]
    exact map_bind_congr fun target _ => rfl

/-- A clause with short names is read the same in every dialect, but for notices. -/
theorem readModifier_inDialect (hd : IsShort d.table.name) (i : Nat)
    (h : ∀ name ∈ clauseNames t ts, IsShort name) :
    quietly (readModifier (s.inDialect D) (d.withNotices ns) i t ts) =
      quietly (readModifier s d i t ts) := by
  unfold readModifier
  split_ifs with _ _ _ _ _ hdefault hreferences
  · exact map_bind_congr fun rest _ => quietly_setPrimaryKey d ns t rest [i]
  · rfl
  · exact map_bind_congr fun rest _ => rfl
  · rfl
  · exact map_bind_congr fun paren _ => map_bind_congr fun expression _ => rfl
  · exact readDefault_inDialect d ns t ts D hs i hdefault h
  · exact readReference_inDialect d ns t ts D hs hd i hreferences h
  · exact map_bind_congr fun action _ => rfl
  · rfl

/-- A step through a body with short names is the same in every dialect, but for notices. -/
theorem readBodyStep_inDialect (hd : IsShort d.table.name) (place : BodyPlace)
    (h : ∀ name ∈ place.names t ts, IsShort name) :
    quietStep (readBodyStep (s.inDialect D) (d.withNotices ns) place t ts) =
      quietStep (readBodyStep s d place t ts) := by
  unfold readBodyStep
  cases place with
  | item => exact readItem_withNotices d ns t ts
  | column i =>
    dsimp only
    split_ifs
    · rfl
    · exact map_bind_of_quietly (readModifier_inDialect d ns t ts D hs hd i h)
        fun d ns rest => rfl

end Readers

/-! ## Bodies and statements -/

section Statements

variable {s : Schema} {d d' : Draft}

/-- No step renames the table. -/
theorem name_of_draftStep {ds : DefaultLog} (h : DraftStep s d ds d') :
    d'.table.name = d.table.name := by
  cases h with
  | column hadd =>
    obtain ⟨-, rfl⟩ := Table.addColumn_ok hadd
    rfl
  | _ => rfl

theorem name_of_draftRun {ds : DefaultLog} (h : DraftRun s d ds d') :
    d'.table.name = d.table.name := by
  induction h with
  | nil => rfl
  | cons hstep _ ih => rw [ih, name_of_draftStep hstep]

/-- The table that is read has the name that its definition declares. -/
theorem name_mem_tableNames {statement : Statement} {stopped : Option CompileError}
    (h : s.readTable statement = .ok (d, stopped)) : d.table.name ∈ s.tableNames statement := by
  obtain ⟨⟨name, body⟩, hhead, h⟩ := bind_eq_ok.1 h
  obtain ⟨t, ht, h⟩ := bind_eq_ok.1 h
  obtain rfl := Schema.freshTable_ok (fromCatalog_eq_ok.1 ht)
  let start := Draft.initial s name (leadingComment statement)
  have hbody : (readBody s start .item body).1 = d := congrArg Prod.fst (Except.ok.inj h)
  have hrun : DraftRun s start (declaredDefaults s start .item body) d :=
    hbody ▸ draftRun_of_readBody body trivial
  rw [Schema.tableNames, hhead]
  exact List.mem_cons.2 (.inl (name_of_draftRun hrun))

/-- A part of a body is refused in the same way, or the drafts are the same but for notices. -/
theorem readBodyStep_inDialect_cases (hs : s.IsShort) (D : Dialect) (hd : IsShort d.table.name)
    {place : BodyPlace} {t : Token} {ts : List Token} (h : ∀ name ∈ place.names t ts, IsShort name)
    (hquiet : d'.quiet = d.quiet) :
    match readBodyStep s d place t ts with
    | .error e => readBodyStep (s.inDialect D) d' place t ts = .error e
    | .ok r => ∃ draft : Draft, draft.quiet = r.draft.quiet ∧
        readBodyStep (s.inDialect D) d' place t ts = .ok { r with draft } := by
  have hstep := readBodyStep_inDialect d d'.notices t ts D hs hd place h
  rw [← withNotices_of_quiet hquiet] at hstep
  cases hr : readBodyStep s d place t ts with
  | error e =>
    cases hr' : readBodyStep (s.inDialect D) d' place t ts with
    | error e' => simpa [quietStep, hr, hr'] using hstep
    | ok r' => simp [quietStep, hr, hr'] at hstep
  | ok r =>
    cases hr' : readBodyStep (s.inDialect D) d' place t ts with
    | error e' => simp [quietStep, hr, hr'] at hstep
    | ok r' =>
      obtain ⟨hdraft, hnext, hrest⟩ :
          r'.draft.quiet = r.draft.quiet ∧ r'.next = r.next ∧ r'.rest = r.rest := by
        simpa [quietStep, hr, hr', BodyStep.quiet] using hstep
      exact ⟨r'.draft, hdraft, by rw [← hnext, ← hrest]⟩

/-- A body is read in the same way, but for notices. -/
theorem readBody_inDialect (hs : s.IsShort) (D : Dialect) (place : BodyPlace) (ts : List Token)
    (hplace : place.Within d.table) (hd : IsShort d.table.name)
    (h : ∀ name ∈ bodyNames s d place ts, IsShort name) (hquiet : d'.quiet = d.quiet) :
    (readBody (s.inDialect D) d' place ts).map Draft.quiet id =
      (readBody s d place ts).map Draft.quiet id := by
  -- The induction is on the tokens that are left, as in the definition of `readBody`.
  induction d, place, ts using readBody.induct s generalizing d' with
  | case1 d =>
    rw [readBody, readBody]
    exact congrArg (·, _) hquiet
  | case2 d i =>
    rw [readBody, readBody]
    exact congrArg (·, _) hquiet
  | case3 d place t ts e he =>
    rw [bodyNames_cons, List.forall_mem_append] at h
    have hstep := readBodyStep_inDialect_cases hs D hd h.1 hquiet
    rw [he] at hstep
    rw [readBody_cons, readBody_cons, he, hstep]
    exact congrArg (·, _) hquiet
  | case4 d place t ts step hread hnext =>
    rw [bodyNames_cons, List.forall_mem_append] at h
    have hstep := readBodyStep_inDialect_cases hs D hd h.1 hquiet
    rw [hread] at hstep
    obtain ⟨draft, hdraft, hstep⟩ := hstep
    rw [readBody_cons, readBody_cons, hread, hstep]
    simp only [hnext]
    exact congrArg (·, _) hdraft
  | case5 d place t ts step hread place' hnext ih =>
    rw [bodyNames_cons, List.forall_mem_append, hread] at h
    simp only [hnext] at h
    have hstep := readBodyStep_inDialect_cases hs D hd h.1 hquiet
    rw [hread] at hstep
    obtain ⟨draft, hdraft, hstep⟩ := hstep
    rw [readBody_cons, readBody_cons, hread, hstep]
    simp only [hnext]
    obtain ⟨hkept, hwithin⟩ := draftStep_of_readBodyStep hplace hread
    exact ih (hwithin place' hnext) (by rwa [name_of_draftStep hkept]) h.2 hdraft

theorem freshTable_inDialect (hs : s.IsShort) (D : Dialect) {name : String}
    (hname : IsShort name) : (s.inDialect D).freshTable name = s.freshTable name := by
  rw [Schema.freshTable, Schema.freshTable, hs.tableNamed hname]
  rfl

/-- A table definition is read in the same way, but for notices. -/
theorem readTable_inDialect {statement : Statement} (hs : s.IsShort) (D : Dialect)
    (h : ∀ name ∈ s.tableNames statement, IsShort name) :
    Prod.map Draft.quiet id <$> (s.inDialect D).readTable statement =
      Prod.map Draft.quiet id <$> s.readTable statement := by
  refine map_bind_congr fun head hhead => ?_
  obtain ⟨name, body⟩ := head
  rw [Schema.tableNames, hhead, List.forall_mem_cons] at h
  obtain ⟨hname, hbody⟩ := h
  dsimp only
  rw [freshTable_inDialect hs D hname]
  refine map_bind_congr fun t ht => congrArg Except.ok ?_
  have ht := fromCatalog_eq_ok.1 ht
  rw [ht] at hbody
  obtain rfl := Schema.freshTable_ok ht
  exact readBody_inDialect hs D .item body trivial hname hbody rfl

/-! ### Compiling -/

/-- The change of the dialect of a schema, which changes no errors. -/
def Dialect.transport (D : Dialect) : Transport := ⟨id, Schema.inDialect D⟩

variable (D : Dialect)

theorem answer_inDialect {α : Type} (x : Compile α) : D.transport.answer id x = x :=
  D.transport.answer_eq_self (fun _ => rfl) x

theorem tableNamed_inDialect (hs : s.IsShort) {name : String} (hname : IsShort name) :
    fromCatalog ((s.inDialect D).tableNamed name) =
      D.transport.answer id (fromCatalog (s.tableNamed name)) := by
  rw [hs.tableNamed hname, answer_inDialect]

theorem addTable_inDialect (hs : s.IsShort) {t : Table} (ht : IsShort t.name) :
    fromCatalog ((s.inDialect D).addTable t) =
      D.transport.answer (Schema.inDialect D) (fromCatalog (s.addTable t)) := by
  rw [Schema.addTable, Schema.addTable, hs.tableNamed ht]
  show fromCatalog (if t.id ≠ s.tables.length then _ else _) = _
  split_ifs
  · rfl
  · cases s.tableNamed t.name <;> rfl

theorem addSequence_inDialect (hs : s.IsShort) {name : String} (hname : IsShort name) :
    fromCatalog ((s.inDialect D).addSequence name) =
      D.transport.answer (Schema.inDialect D) (fromCatalog (s.addSequence name)) := by
  rw [Schema.addSequence, Schema.addSequence, hs.sequenceNamed hname]
  cases s.sequenceNamed name <;> rfl

theorem addIndex_inDialect (hs : s.IsShort) {i : Index} (hi : IsShort i.name) :
    fromCatalog ((s.inDialect D).addIndex i) =
      D.transport.answer (Schema.inDialect D) (fromCatalog (s.addIndex i)) := by
  rw [Schema.addIndex, Schema.addIndex, hs.indexNamed hi]
  cases s.indexNamed i.name <;> rfl

/-- A draft with a short name is committed in every dialect alike. -/
theorem carries_commit_inDialect (hs : s.IsShort) (hd : IsShort d.table.name) :
    D.transport.Carries d.commit d.commit s :=
  .commit rfl rfl (fun _ _ _ => rfl) (addTable_inDialect D hs hd)

variable {statement : Statement}

/-- A table definition with short names is compiled alike in every dialect. -/
theorem carries_compileTable_inDialect (hs : s.IsShort)
    (h : ∀ name ∈ s.tableNames statement, IsShort name) :
    D.transport.Carries (compileTable statement) (compileTable statement) s := by
  have hquiet := readTable_inDialect hs D h
  refine .get ?_
  show D.transport.Carries _ (liftM ((s.inDialect D).readTable statement) >>= _) s
  rcases hread : s.readTable statement with e | ⟨d, stopped⟩ <;>
    rcases hread' : (s.inDialect D).readTable statement with e' | ⟨d', stopped'⟩ <;>
    rw [hread, hread'] at hquiet
  · obtain rfl := Except.error.inj hquiet
    rfl
  · cases hquiet
  · cases hquiet
  · obtain ⟨hd, rfl⟩ : d'.quiet = d.quiet ∧ stopped' = stopped := by simpa using hquiet
    cases stopped' with
    | some e => rfl
    | none =>
      rw [withNotices_of_quiet hd]
      exact carries_commit_inDialect D hs (h _ (name_mem_tableNames hread))

theorem carries_compileSequence_inDialect (hs : s.IsShort)
    (h : ∀ name, readSequenceDefinition (Token.flatten statement) = .ok name → IsShort name) :
    D.transport.Carries (compileSequence statement) (compileSequence statement) s := by
  refine .get (.read (answer_inDialect D _).symm fun name hname => ?_)
  exact .read (addSequence_inDialect D hs (h name hname)) fun s' _ =>
    .bind (.set s') fun _ _ _ => .pure

theorem carries_compileIndex_inDialect (hs : s.IsShort)
    (h : ∀ head, readIndexHead (Token.flatten statement) = .ok head →
      IsShort head.table ∧ IsShort head.name) :
    D.transport.Carries (compileIndex statement) (compileIndex statement) s := by
  refine .get (.read (answer_inDialect D _).symm fun head hhead => ?_)
  obtain ⟨htable, hname⟩ := h head hhead
  refine .read (tableNamed_inDialect D hs htable) fun t _ => ?_
  refine .read (answer_inDialect D _).symm fun names _ => ?_
  refine .read (answer_inDialect D _).symm fun columns _ => ?_
  exact .read (addIndex_inDialect D hs hname) fun s' _ => .set s'

theorem carries_compileSeedRow_inDialect (hs : s.IsShort)
    (h : ∀ row, readSeedRow (Token.flatten statement) = .ok row → IsShort row.table) :
    D.transport.Carries (compileSeedRow statement) (compileSeedRow statement) s := by
  refine .get (.read (answer_inDialect D _).symm fun row hrow => ?_)
  refine .read (tableNamed_inDialect D hs (h row hrow)) fun t _ => ?_
  exact .read (answer_inDialect D _).symm fun t' _ =>
    .set (s.modifyTable t.id fun _ => t')

/-- An accepted statement declares short names only, if it looks up no others. -/
theorem yields_isShort (hs : s.IsShort) (kind : StatementKind)
    (hkind : StatementKind.of statement = .ok kind)
    (h : ∀ name ∈ s.statementNames statement, IsShort name) :
    (kind.compile statement).Yields s fun _ s' => s'.IsShort := by
  rw [Schema.statementNames, hkind] at h
  cases kind with
  | table =>
    refine yields_readTable.discard.mono fun _ s' hdone => ?_
    obtain ⟨_, d, hread, -, rfl, -⟩ := hdone
    refine ⟨?_, ?_, by simpa using hs.indexes⟩
    · rw [tables_withDraft]
      exact List.forall_mem_append.2 ⟨hs.tables, by simpa using h _ (name_mem_tableNames hread)⟩
    · have hsequences := hs.sequences
      rw [← List.forall_mem_map (f := Sequence.name) (P := IsShort)] at hsequences ⊢
      rwa [names_sequences_withDraft]
  | sequence =>
    refine Compiling.Yields.discard (P := fun _ s' => s'.IsShort) ?_ |>.mono fun _ _ ⟨_, h⟩ => h
    refine .get (.read fun name hname => .read fun s' hs' => ?_)
    obtain ⟨-, rfl⟩ := Schema.addSequence_ok (fromCatalog_eq_ok.1 hs')
    have hname : IsShort name := h name (by simp [toOption_eq_some.2 hname])
    refine Compiling.Yields.of_into rfl ⟨hs.tables, ?_, hs.indexes⟩
    exact List.forall_mem_append.2 ⟨hs.sequences, by simpa using hname⟩
  | index =>
    refine .get (.read fun head hhead => .read fun t _ => .read fun names _ => ?_)
    refine .read fun columns _ => .read fun s' hs' => .set ?_
    obtain ⟨-, rfl⟩ := Schema.addIndex_ok (fromCatalog_eq_ok.1 hs')
    have hname : IsShort head.name := h head.name (by simp [toOption_eq_some.2 hhead])
    exact ⟨hs.tables, hs.sequences,
      List.forall_mem_append.2 ⟨hs.indexes, by simpa using hname⟩⟩
  | seedRow =>
    refine .get (.read fun row _ => .read fun t ht => .read fun t' ht' => .set ?_)
    obtain ⟨hmem, -⟩ := Schema.tableNamed_ok (fromCatalog_eq_ok.1 ht)
    obtain ⟨-, rfl⟩ := Table.addRow_ok (fromCatalog_eq_ok.1 ht')
    refine ⟨fun u hu => ?_, hs.sequences, hs.indexes⟩
    obtain ⟨v, hv, rfl | rfl⟩ := mem_modify hu
    · exact hs.tables u hv
    · exact hs.tables t hmem
  | blank => exact .pure hs

/-- A statement does the same in another dialect, if the names that count are short. -/
theorem carries_compileStatement_inDialect (hs : s.IsShort)
    (h : ∀ name ∈ s.statementNames statement, IsShort name) :
    D.transport.Carries (compileStatement statement) (compileStatement statement) s := by
  refine .read (answer_inDialect D _).symm fun kind hkind => ?_
  rw [Schema.statementNames, hkind] at h
  cases kind with
  | table => exact (carries_compileTable_inDialect D hs h).discard
  | sequence =>
    refine (carries_compileSequence_inDialect D hs fun name hname => ?_).discard
    exact h name (by simp [toOption_eq_some.2 hname])
  | index =>
    refine carries_compileIndex_inDialect D hs fun head hhead => ⟨?_, ?_⟩
    · exact h head.table (by simp [toOption_eq_some.2 hhead])
    · exact h head.name (by simp [toOption_eq_some.2 hhead])
  | seedRow =>
    refine carries_compileSeedRow_inDialect D hs fun row hrow => ?_
    exact h row.table (by simp [toOption_eq_some.2 hrow])
  | blank => exact .pure

/-- An accepted statement with short names leaves a schema with short names. -/
theorem isShort_of_into_compileStatement {s' : Schema} (hs : s.IsShort)
    (h : ∀ name ∈ s.statementNames statement, IsShort name)
    (hdone : (compileStatement statement).into s = (.ok ⟨⟩, s')) : s'.IsShort := by
  rw [into_compileStatement] at hdone
  cases hkind : StatementKind.of statement with
  | error e =>
    rw [hkind] at hdone
    cases hdone
  | ok kind =>
    rw [hkind] at hdone
    exact (yields_isShort hs kind hkind h).of_ok hdone

/-- A script with short names is compiled alike in every dialect. -/
theorem carries_compileScript_inDialect {script : List Statement} (hs : s.IsShort)
    (h : ∀ name ∈ s.scriptNames script, IsShort name) :
    D.transport.Carries (compileScript script) (compileScript script) s := by
  induction script generalizing s with
  | nil => exact .pure
  | cons statement rest ih =>
    rw [Schema.scriptNames, List.forall_mem_append] at h
    refine (carries_compileStatement_inDialect D hs h.1).bind fun _ s' hdone => ?_
    have hrest := h.2
    rw [hdone] at hrest
    exact ih (isShort_of_into_compileStatement hs h.1 hdone) hrest

/-- A source does the same in every dialect, if the names of tables, sequences and indexes that it
declares or looks up are short: it is refused for the same reason or not at all, and what is in the
schema afterwards is the same. -/
theorem compileSource_inDialect (file source : String) (d d' : Dialect)
    (h : ∀ name ∈ (Schema.empty file d).sourceNames source, IsShort name) :
    (compileSource source).into (.empty file d') =
      ((compileSource source).into (.empty file d)).map id (Schema.inDialect d') := by
  have hempty : (Schema.empty file d).IsShort := by constructor <;> simp [Schema.empty]
  show (compileSource source).into ((Schema.empty file d).inDialect d') = _
  rw [into_compileSource, into_compileSource]
  rw [Schema.sourceNames] at h
  cases hscript : statements source with
  | error e => rfl
  | ok script =>
    rw [hscript] at h
    have hcarries := carries_compileScript_inDialect d' hempty h
    rw [Transport.Carries, answer_inDialect] at hcarries
    exact hcarries

end Statements

/-- A sequence that is looked up in another letter case, and a table that refers to itself. -/
theorem compileSource_inDialect_sequence :
    ∃ source, (∀ name ∈ (Schema.empty "" .postgres).sourceNames source, IsShort name) ∧
      (compileSource source).into (.empty "" .oracle) =
        ((compileSource source).into (.empty "" .postgres)).map id (Schema.inDialect .oracle) := by
  have hshort : (((Schema.empty "" .postgres).sourceNames
      "create sequence s;\ncreate table t (x integer default nextval('S') references T)").all
        fun name => decide (IsShort name)) = true := by decide +kernel
  have hshort := fun name hname => of_decide_eq_true (List.all_eq_true.1 hshort name hname)
  exact ⟨_, hshort, compileSource_inDialect "" _ .postgres .oracle hshort⟩

/-- Thirty characters are the limit: with one more, two tables have the same name in one dialect. -/
example :
    ["abcdefghijklmnopqrstuvwxyz01234", "abcdefghijklmnopqrstuvwxyz01235"].map
      Dialect.oracle.identifierKey = ["abcdefghijklmnopqrstuvwxyz0123",
        "abcdefghijklmnopqrstuvwxyz0123"] := by decide +kernel

end SqlCatalog

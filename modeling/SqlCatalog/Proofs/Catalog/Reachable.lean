import SqlCatalog.Proofs.Catalog.Compiling

/-!
# Reachable schemas

A schema is handed statements and whole sources, any number of times and in any order, and some of
them are refused. Whatever is handed to it, the schema sees a list of statements that are compiled
one by one, so that a property that every change keeps holds of every schema that is reached.

## Main definitions

* `Submission` is what can be handed to a schema, `Schema.submit` compiles it.
* `Schema.parts` are the statements that compiling it comes down to.
* `Reachable` holds of the schemas that are reached from an empty one.

## Main statements

* `submit_eq_compileParts`: compiling a submission is compiling its parts.
* `Reachable.of_change`: what is true of empty schemas and kept by every change is true of every
  reachable schema.
-/

namespace SqlCatalog

/-! ## Submissions -/

/-- What can be handed to a schema: a statement of a known kind, any statement, or a source. -/
inductive Submission where
  | part (kind : StatementKind) (tokens : Statement)
  | statement (tokens : Statement)
  | source (text : String)

/-- Compiles a submission. -/
def Submission.compile : Submission → Compiling Unit
  | part kind tokens => kind.compile tokens
  | statement tokens => compileStatement tokens
  | source text => compileSource text

namespace Schema

variable (s : Schema)

/-- The schema after a submission, which may have been refused. -/
def submit (c : Submission) : Schema := (c.compile.into s).2

/-- The schema after some submissions. -/
def submitAll (cs : List Submission) : Schema := cs.foldl submit s

/-! ## Parts -/

/-- The statements of a script up to the first that is refused, with their kinds. -/
def scriptParts (s : Schema) : List Statement → List (StatementKind × Statement)
  | [] => []
  | statement :: rest =>
    match StatementKind.of statement with
    | .error _ => []
    | .ok kind =>
      (kind, statement) ::
        match (kind.compile statement).into s with
        | (.ok _, s) => scriptParts s rest
        | (.error _, _) => []

/-- The statements that compiling a submission comes down to, with their kinds. -/
def parts : Submission → List (StatementKind × Statement)
  | .part kind statement => [(kind, statement)]
  | .statement statement => s.scriptParts [statement]
  | .source text =>
    match statements text with
    | .ok script => s.scriptParts script
    | .error _ => []

/-- The schema after one part. -/
def compilePart (p : StatementKind × Statement) : Schema := ((p.1.compile p.2).into s).2

/-- The schema after some parts. -/
def compileParts (ps : List (StatementKind × Statement)) : Schema := ps.foldl compilePart s

/-- The parts of some submissions, each compiled into the schema that the ones before leave. -/
def allParts (s : Schema) : List Submission → List (StatementKind × Statement)
  | [] => []
  | c :: cs => s.parts c ++ allParts (s.submit c) cs

end Schema

variable {s s' : Schema}

/-- A statement is compiled by its kind. -/
theorem into_compileStatement (statement : Statement) :
    (compileStatement statement).into s =
      match StatementKind.of statement with
      | .ok kind => (kind.compile statement).into s
      | .error e => (.error e, s) := by
  rw [compileStatement, Compiling.into_bind]
  cases StatementKind.of statement <;> rfl

/-- A script goes on after an accepted statement and ends at a refused one. -/
theorem into_compileScript_cons (statement : Statement) (rest : List Statement) :
    (compileScript (statement :: rest)).into s =
      match (compileStatement statement).into s with
      | (.ok _, s) => (compileScript rest).into s
      | (.error e, s) => (.error e, s) := by
  show Compiling.into (compileStatement statement >>= fun _ => compileScript rest) s = _
  rw [Compiling.into_bind]
  rcases (compileStatement statement).into s with ⟨e | _, s'⟩ <;> rfl

theorem into_compileScript_singleton (statement : Statement) :
    (compileScript [statement]).into s = (compileStatement statement).into s := by
  rw [into_compileScript_cons]
  rcases (compileStatement statement).into s with ⟨e | _, s'⟩ <;> rfl

/-- A source that cannot be read is refused before anything is compiled. -/
theorem into_compileSource (text : String) :
    (compileSource text).into s =
      match statements text with
      | .ok script => (compileScript script).into s
      | .error e => (.error (.lex e), s) := by
  rw [compileSource, Compiling.into_bind]
  cases statements text <;> rfl

/-- What a script leaves is what its parts leave, one after the other. -/
theorem into_compileScript (script : List Statement) :
    ((compileScript script).into s).2 = s.compileParts (s.scriptParts script) := by
  induction script generalizing s with
  | nil => rfl
  | cons statement rest ih =>
    rw [into_compileScript_cons, into_compileStatement, Schema.scriptParts]
    cases StatementKind.of statement with
    | error e => rfl
    | ok kind =>
      rw [Schema.compileParts, List.foldl_cons, Schema.compilePart]
      rcases hkind : (kind.compile statement).into s with ⟨e | _, s'⟩
      · simp [hkind]
      · simpa [hkind, Schema.compileParts] using ih

/-- Compiling a submission is compiling its parts one by one. -/
theorem submit_eq_compileParts (c : Submission) : s.submit c = s.compileParts (s.parts c) := by
  cases c with
  | part kind statement => rfl
  | statement statement =>
    rw [Schema.parts, ← into_compileScript, into_compileScript_singleton, Schema.submit,
      Submission.compile]
  | source text =>
    rw [Schema.submit, Submission.compile, into_compileSource, Schema.parts]
    cases statements text with
    | error e => rfl
    | ok script => exact into_compileScript script

theorem compileParts_append (ps qs : List (StatementKind × Statement)) :
    s.compileParts (ps ++ qs) = (s.compileParts ps).compileParts qs :=
  List.foldl_append

/-- What submissions leave is what their parts leave, so that one induction serves for all of
them. -/
theorem submitAll_eq_compileParts (cs : List Submission) :
    s.submitAll cs = s.compileParts (s.allParts cs) := by
  induction cs generalizing s with
  | nil => rfl
  | cons c cs ih =>
    rw [Schema.allParts, compileParts_append, ← submit_eq_compileParts]
    exact ih

/-! ## Reachable schemas -/

/-- A schema that is reached from an empty one by submissions, refused or not. -/
inductive Reachable : Schema → Prop
  | empty (source : String) (dialect : Dialect) : Reachable (.empty source dialect)
  | submit {s : Schema} (h : Reachable s) (c : Submission) : Reachable (s.submit c)

/-- A part is refused and changes nothing, or it makes a change of its kind. -/
theorem compilePart_cases (p : StatementKind × Statement) :
    (∃ e, (p.1.compile p.2).into s = (.error e, s)) ∨
      ∃ s', (p.1.compile p.2).into s = (.ok ⟨⟩, s') ∧ Change s p.1 p.2 s' := by
  have h : (p.1.compile p.2).Yields s fun _ s' => Change s p.1 p.2 s' := yields_compile p.1
  unfold Compiling.Yields at h
  rcases hinto : (p.1.compile p.2).into s with ⟨e | _, s'⟩ <;> rw [hinto] at h
  · exact .inl ⟨e, by rw [h]⟩
  · exact .inr ⟨s', rfl, h⟩

/-- A property of empty schemas that every change keeps holds of every reachable schema. -/
theorem Reachable.of_change {P : Schema → Prop} (h : Reachable s)
    (hempty : ∀ source dialect, P (.empty source dialect))
    (hchange : ∀ s kind statement s', P s → Change s kind statement s' → P s') : P s := by
  -- A submission comes down to its parts, so the step of the induction is an induction on these.
  have parts (s : Schema) (hs : P s) (ps : List (StatementKind × Statement)) :
      P (s.compileParts ps) := by
    induction ps generalizing s with
    | nil => exact hs
    | cons p ps ih =>
      refine ih _ ?_
      rw [Schema.compilePart]
      rcases compilePart_cases (s := s) p with ⟨e, hp⟩ | ⟨s', hp, hp'⟩ <;> rw [hp]
      · exact hs
      · exact hchange s p.1 p.2 s' hs hp'
  induction h with
  | empty source dialect => exact hempty source dialect
  | submit _ c ih =>
    rw [submit_eq_compileParts]
    exact parts _ ih _

end SqlCatalog

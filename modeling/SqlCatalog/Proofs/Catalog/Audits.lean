import Mathlib.Data.List.ReduceOption
import SqlCatalog.Audit

/-!
# What an audit passes

An audit is a run of the command that is asked to compare two files. It passes, with status 0, only
if both compile and there is nothing to report, and prints the report with status 2 otherwise. The
one way to an audit that passes without comparing anything is to end the arguments with the option
that asks for it, which then has no file and is passed over.

## Main definitions

* `optionsIn` tells options from their values; `comparedWith` are the values of the options that ask
  for a comparison.
* `Audit.Trusted` says of a run what its status is trusted for.

## Main statements

* `Request.withOptions_eq_ok`: a request is for a comparison with the last file that is given.
* `Request.status_eq_zero_iff`, `Request.outcome_of_loaded`: when a request passes, and what a
  comparison prints.
* `audit_trusted_iff`: when the status of an audit can be trusted.
-/

namespace SqlCatalog

/-! ## Options and their values -/

/-- Whether an option asks for a comparison. -/
def asksToCompare (option : String) : Bool := ["-c", "--compare"].contains option

/-- Whether an option takes the next argument as its value. -/
def takesValue (option : String) : Bool :=
  asksToCompare option || ["-d", "--dialect"].contains option

/-- The options among the arguments behind the path, with their values. An argument that is the
value of another one is not an option, whatever it looks like. -/
def optionsIn : List String → List (String × Option String)
  | [] => []
  | option :: rest =>
    if takesValue option then
      match rest with
      | [] => [(option, none)]
      | value :: rest => (option, some value) :: optionsIn rest
    else (option, none) :: optionsIn rest

/-- The values of the options that ask for a comparison. -/
def comparedWith (arguments : List String) : List (Option String) :=
  (optionsIn arguments).filterMap fun o => if asksToCompare o.1 then some o.2 else none

/-- The file to compare with: the last one that is given. -/
def lastCompared (arguments : List String) : Option String :=
  (comparedWith arguments).reduceOption.getLast?

section Options

variable {option : String} {rest arguments : List String}

/-- The argument behind an option that asks to compare is its value, if there is one. -/
theorem comparedWith_of_asksToCompare (h : asksToCompare option = true) :
    comparedWith (option :: rest) = rest.head? :: comparedWith rest.tail := by
  cases rest <;> simp [comparedWith, optionsIn, takesValue, h]

/-- The argument behind another option with a value is passed over. -/
theorem comparedWith_of_takesValue (hvalue : takesValue option = true)
    (h : asksToCompare option = false) :
    comparedWith (option :: rest) = comparedWith rest.tail := by
  cases rest <;> simp [comparedWith, optionsIn, hvalue, h]

theorem comparedWith_of_flag (h : takesValue option = false) :
    comparedWith (option :: rest) = comparedWith rest := by
  have hasks : asksToCompare option = false := (Bool.or_eq_false_iff.1 h).1
  cases rest <;> simp [comparedWith, optionsIn, h, hasks]

/-- A file that is given counts if no other one is given behind it. -/
theorem lastCompared_of_asksToCompare (h : asksToCompare option = true) :
    lastCompared (option :: rest) = (lastCompared rest.tail).or rest.head? := by
  rw [lastCompared, comparedWith_of_asksToCompare h]
  cases rest with
  | nil => rfl
  | cons value rest =>
    rw [List.head?_cons, List.tail_cons, List.reduceOption_cons_of_some, List.getLast?_cons,
      lastCompared]
    cases (comparedWith rest).reduceOption.getLast? <;> rfl

/-- Options without a file can only be at the end, so that one at most is without a file. -/
theorem lastCompared_eq_none_iff : lastCompared arguments = none ↔
    comparedWith arguments = [] ∨ comparedWith arguments = [none] := by
  induction arguments using optionsIn.induct with
  | case1 => exact iff_of_true rfl (.inl rfl)
  | case2 option hvalue =>
    cases h : asksToCompare option with
    | true =>
      rw [lastCompared_of_asksToCompare h, comparedWith_of_asksToCompare h]
      exact iff_of_true rfl (.inr rfl)
    | false =>
      rw [lastCompared, comparedWith_of_takesValue hvalue h]
      exact iff_of_true rfl (.inl rfl)
  | case3 option hvalue value rest ih =>
    cases h : asksToCompare option with
    | true => simp [lastCompared_of_asksToCompare h, comparedWith_of_asksToCompare h]
    | false => rwa [lastCompared, comparedWith_of_takesValue hvalue h]
  | case4 option rest hflag ih => rwa [lastCompared, comparedWith_of_flag (by simpa using hflag)]

end Options

/-! ## Requests -/

namespace Request

variable {r r' : Request} {read : Reader} {options : List String}

/-- Options leave the path alone, and the last file that is given is the one to compare with. -/
theorem withOptions_eq_ok (h : r.withOptions options = .ok r') :
    r'.path = r.path ∧ r'.against = (lastCompared options).or r.against := by
  fun_induction withOptions r options with
  | case1 => cases h; exact ⟨rfl, rfl⟩
  | case2 r option hasks =>
    cases h
    rw [lastCompared_of_asksToCompare hasks]
    exact ⟨rfl, rfl⟩
  | case3 r option hasks file rest ih =>
    obtain ⟨hpath, hagainst⟩ := ih h
    rw [lastCompared_of_asksToCompare hasks, Option.or_assoc]
    exact ⟨hpath, hagainst⟩
  | case4 r option hasks hdialect =>
    cases h
    have hvalue : takesValue option = true := Bool.or_eq_true_iff.2 (.inr hdialect)
    rw [lastCompared, comparedWith_of_takesValue hvalue (Bool.eq_false_iff.2 hasks)]
    exact ⟨rfl, rfl⟩
  | case5 r option hasks hdialect name rest d hname ih =>
    have hvalue : takesValue option = true := Bool.or_eq_true_iff.2 (.inr hdialect)
    rw [lastCompared, comparedWith_of_takesValue hvalue (Bool.eq_false_iff.2 hasks)]
    exact ih h
  | case6 => cases h
  | case7 r option rest hasks hdialect hverbose ih =>
    have hflag : takesValue option = false :=
      Bool.or_eq_false_iff.2 ⟨Bool.eq_false_iff.2 hasks, Bool.eq_false_iff.2 hdialect⟩
    rw [lastCompared, comparedWith_of_flag hflag]
    exact ih h
  | case8 => cases h
  | case9 => cases h

/-- A run ends with status zero exactly when its schema is loaded and, if it asks to compare, the
other schema is loaded too and the report is empty. -/
theorem status_eq_zero_iff : (r.outcome read).status = 0 ↔
    ∃ mine, (r.load read r.path).schema = .ok mine ∧
      ∀ file ∈ r.against, ∃ theirs, (r.load read file).schema = .ok theirs ∧
        mine.report theirs = [] := by
  cases hmine : (r.load read r.path).schema with
  | error problem => simp [outcome, hmine]
  | ok mine =>
    cases hfile : r.against with
    | none => simp [outcome, hmine, hfile]
    | some file =>
      cases htheirs : (r.load read file).schema with
      | error problem => simp [outcome, hmine, hfile, htheirs]
      | ok theirs => simp [outcome, hmine, hfile, htheirs]

/-- When both schemas are loaded, a comparison prints the report, and its status is zero if there
is nothing to report and two otherwise. -/
theorem outcome_of_loaded {file : String} {mine theirs : Schema} (hfile : r.against = some file)
    (hmine : (r.load read r.path).schema = .ok mine)
    (htheirs : (r.load read file).schema = .ok theirs) :
    (r.outcome read).status = (if (mine.report theirs).isEmpty then 0 else 2) ∧
      (r.outcome read).output = unlines (mine.report theirs) := by
  simp [outcome, hfile, hmine, htheirs]

/-- What the arguments ask for: the file named first, and a comparison with the last file that is
given. -/
theorem ofArguments_eq_ok {path : String} (h : ofArguments (path :: options) = .ok r) :
    r.path = path ∧ r.against = lastCompared options := by
  obtain ⟨hpath, hagainst⟩ := withOptions_eq_ok h
  exact ⟨hpath, hagainst.trans (Option.or_none)⟩

end Request

/-! ## Audits -/

/-- What the status of an audit is trusted for. If it passes, then both files compiled, and there
was nothing to report; if there is anything to report, then it is printed, and the audit fails. -/
structure Audit.Trusted (program : String) (read : Reader) (path : String)
    (options : List String) : Prop where
  passes : (run program read (path :: options)).status = 0 →
    ∃ r file mine theirs, Request.ofArguments (path :: options) = .ok r ∧
      lastCompared options = some file ∧ (r.load read path).schema = .ok mine ∧
      (r.load read file).schema = .ok theirs ∧ mine.report theirs = []
  reports : ∀ r file mine theirs, Request.ofArguments (path :: options) = .ok r →
    lastCompared options = some file → (r.load read path).schema = .ok mine →
    (r.load read file).schema = .ok theirs → mine.report theirs ≠ [] →
    (run program read (path :: options)).status = 2 ∧
      (run program read (path :: options)).output = unlines (mine.report theirs)

section Audits

variable {program : String} {read : Reader} {path : String} {options : List String}

/-- With arguments that make a request, the program does what the request asks for. -/
theorem Audit.run_of_ok {r : Request} (h : Request.ofArguments (path :: options) = .ok r) :
    run program read (path :: options) = r.outcome read := by
  rw [run, h]

/-- With arguments that make none, the program says why and ends with status one. -/
theorem Audit.run_of_error {refusal : Refusal}
    (h : Request.ofArguments (path :: options) = .error refusal) :
    run program read (path :: options) = ⟨1, "", unlines [refusal.message program]⟩ := by
  rw [run, h]

/-- The status of an audit can be trusted, unless the only option that asks for a comparison ends
the arguments and has no file: then the audit passes as soon as the first file compiles. -/
theorem audit_trusted_iff (hasks : comparedWith options ≠ []) :
    Audit.Trusted program read path options ↔
      ¬(comparedWith options = [none] ∧ ∃ r mine, Request.ofArguments (path :: options) = .ok r ∧
        (r.load read path).schema = .ok mine) := by
  have hnone : comparedWith options = [none] ↔ lastCompared options = none := by
    simp [lastCompared_eq_none_iff, hasks]
  rw [hnone]
  constructor
  · rintro htrusted ⟨hlast, r, mine, hr, hmine⟩
    obtain ⟨hpath, hagainst⟩ := Request.ofArguments_eq_ok hr
    have hzero : (Audit.run program read (path :: options)).status = 0 := by
      rw [Audit.run_of_ok hr, Request.status_eq_zero_iff, hagainst, hlast, hpath]
      exact ⟨mine, hmine, fun file hfile => nomatch hfile⟩
    obtain ⟨-, file, -, -, -, hfile, -⟩ := htrusted.passes hzero
    exact absurd (hlast.symm.trans hfile) (by simp)
  · intro hcompares
    refine ⟨fun hzero => ?_, fun r file mine theirs hr hfile hmine htheirs hreport => ?_⟩
    · cases hr : Request.ofArguments (path :: options) with
      | error refusal =>
        rw [Audit.run_of_error hr] at hzero
        exact absurd (show (1 : UInt32) = 0 from hzero) (by decide)
      | ok r =>
        obtain ⟨hpath, hagainst⟩ := Request.ofArguments_eq_ok hr
        rw [Audit.run_of_ok hr, Request.status_eq_zero_iff, hagainst, hpath] at hzero
        obtain ⟨mine, hmine, hfiles⟩ := hzero
        cases hlast : lastCompared options with
        | none => exact absurd ⟨hlast, r, mine, hr, hmine⟩ hcompares
        | some file =>
          obtain ⟨theirs, htheirs, hreport⟩ := hfiles file hlast
          exact ⟨r, file, mine, theirs, rfl, rfl, hmine, htheirs, hreport⟩
    · obtain ⟨hpath, hagainst⟩ := Request.ofArguments_eq_ok hr
      rw [Audit.run_of_ok hr]
      obtain ⟨hstatus, houtput⟩ := Request.outcome_of_loaded (hagainst.trans hfile)
        (hpath ▸ hmine) htheirs
      exact ⟨by simpa [hreport] using hstatus, houtput⟩

/-- Two files, of which the second makes a schema with one more column. -/
def auditFiles : Reader := fun path =>
  match path with
  | "old.sql" => .ok "create table t (x integer)"
  | "new.sql" => .ok "create table t (x integer, y text)"
  | _ => .error .missing

/-- Of two files to compare with the later counts, and the value of the first option is no option,
though it looks like one. -/
theorem audit_trusted_overridden :
    Audit.Trusted "audit" auditFiles "old.sql" ["-c", "-c", "--compare", "new.sql"] ∧
      Audit.run "audit" auditFiles ["old.sql", "-c", "-c", "--compare", "new.sql"] =
        ⟨2, "Table: t, missing column: y\n", ""⟩ := by
  have hasks : comparedWith ["-c", "-c", "--compare", "new.sql"] = [some "-c", some "new.sql"] := by
    decide
  refine ⟨(audit_trusted_iff (by simp [hasks])).2 ?_, by decide +kernel⟩
  rintro ⟨hlast, -⟩
  simp [hasks] at hlast

/-- An audit that was not told what to compare with passes. -/
theorem audit_not_trusted :
    comparedWith ["-c"] ≠ [] ∧ Audit.run "audit" auditFiles ["old.sql", "-c"] =
        ⟨0, "table t\n    x  integer\n", ""⟩ ∧
      ¬Audit.Trusted "audit" auditFiles "old.sql" ["-c"] := by
  have hrun : Audit.run "audit" auditFiles ["old.sql", "-c"] =
      ⟨0, "table t\n    x  integer\n", ""⟩ := by
    decide +kernel
  refine ⟨by decide, hrun, fun htrusted => ?_⟩
  obtain ⟨-, file, -, -, -, hfile, -⟩ := htrusted.passes (by rw [hrun])
  cases hfile

end Audits

end SqlCatalog

import SqlCatalog.Definition.Script

/-!
# The audit command

The command compiles a schema file and prints its listing, or compares it with another file and
prints the report. It is described here as a function of its arguments and of what reading a file
gives, so that only reading and printing are left to the program.

## Main definitions

* `Request.ofArguments` reads the arguments.
* `Request.load` compiles a file.
* `Audit.run` is the whole command; an `Outcome` is what it prints and the status it ends with.
-/

namespace SqlCatalog

/-! ## Arguments -/

/-- What the command is asked for: a schema file, the file it is compared with, the dialect of
both, and whether every step is logged. -/
structure Request where
  path : String
  against : Option String
  dialect : Dialect
  verbose : Bool
deriving DecidableEq

/-- Why the command does not begin. -/
inductive Refusal where
  /-- No file was named, or help was asked for. -/
  | help
  | unknownDialect (name : String)
  | unknownOption (name : String)
deriving DecidableEq

/-- The wording of a refusal, for a command that was called by the name `program`. -/
def Refusal.message (program : String) : Refusal → String
  | help =>
    s!"Usage: {program} <schema.sql> [options]\n\nOptions:\n" ++
      "  -c, --compare <file>   Report discrepancies against another schema\n" ++
      "  -d, --dialect <name>   postgres, oracle, sqlite (default: postgres)\n" ++
      "  -v, --verbose          Log compiled statements"
  | unknownDialect name =>
    s!"Invalid dialect: {name} (expected " ++ ", ".intercalate (Dialect.all.map Dialect.name) ++ ")"
  | unknownOption name => s!"Unknown option: {name}"

namespace Request

/-- Reads options from left to right. Of two values for one option the later counts, and an option
without its value at the end is passed over. -/
def withOptions (r : Request) : List String → Except Refusal Request
  | [] => .ok r
  | option :: rest =>
    if ["-c", "--compare"].contains option then
      match rest with
      | [] => .ok r
      | path :: rest => withOptions { r with against := some path } rest
    else if ["-d", "--dialect"].contains option then
      match rest with
      | [] => .ok r
      | name :: rest =>
        match Dialect.named? name with
        | some d => withOptions { r with dialect := d } rest
        | none => .error (.unknownDialect name)
    else if ["-v", "--verbose"].contains option then withOptions { r with verbose := true } rest
    else if ["-h", "--help"].contains option then .error .help
    else .error (.unknownOption option)

/-- Reads the arguments: a path, whatever it looks like, and options. -/
def ofArguments : List String → Except Refusal Request
  | [] => .error .help
  | path :: options => withOptions ⟨path, none, .standard, false⟩ options

/-- The files that are read. -/
def files (r : Request) : List String := r.path :: r.against.toList

end Request

/-! ## Files -/

/-- Why a file has no text. -/
inductive ReadFailure where
  | missing
  | notDirectory
  | isDirectory
  | nameTooLong
  | notUtf8
  | other (cause : String)
deriving DecidableEq

/-- The wording of a failure. -/
def ReadFailure.message : ReadFailure → String
  | missing => "No such file or directory (os error 2)"
  | notDirectory => "Not a directory (os error 20)"
  | isDirectory => "Is a directory (os error 21)"
  | nameTooLong => "File name too long (os error 36)"
  | notUtf8 => "stream did not contain valid UTF-8"
  | other cause => cause

/-- What reading a file gives, by its path. -/
abbrev Reader := String → Except ReadFailure String

/-- What compiling a file gives: the notices it leaves, and the schema or what to tell instead. -/
structure Loaded where
  notices : List Notice
  schema : Except String Schema

namespace Request

/-- Compiles a file. -/
def load (r : Request) (read : Reader) (path : String) : Loaded :=
  match read path with
  | .error failure => ⟨[], .error s!"Failed to read {path}: {failure.message}"⟩
  | .ok source =>
    { notices := .compilingFile path r.dialect :: (Schema.empty path r.dialect).sourceNotices source
      schema := (Schema.ofSource path r.dialect source).mapError fun e => s!"{path}: {e.message}" }

end Request

/-! ## Outcomes -/

/-- The line that logs a notice. -/
def Notice.line (n : Notice) : String := s!"[{n.severity.word}] {n.message}"

/-- What a run of the command prints, and the status it ends with. -/
structure Outcome where
  status : UInt32
  output : String
  errors : String
deriving DecidableEq

namespace Request

/-- The log of the notices that are shown. -/
def log (r : Request) (notices : List Notice) : String :=
  unlines ((Notice.visible (if r.verbose then .debug else .warn) notices).map Notice.line)

/-- The outcome of a request: status 1 if a file cannot be compiled, 2 if there is anything to
report, and 0 otherwise. -/
def outcome (r : Request) (read : Reader) : Outcome :=
  let mine := r.load read r.path
  match mine.schema with
  | .error problem => ⟨1, "", r.log mine.notices ++ unlines [problem]⟩
  | .ok schema =>
    match r.against with
    | none => ⟨0, schema.listing, r.log mine.notices⟩
    | some path =>
      let theirs := r.load read path
      let log := r.log (mine.notices ++ theirs.notices)
      match theirs.schema with
      | .error problem => ⟨1, "", log ++ unlines [problem]⟩
      | .ok other =>
        let report := schema.report other
        ⟨if report.isEmpty then 0 else 2, unlines report, log⟩

end Request

/-- The command with the given arguments, called by the name `program`. -/
def Audit.run (program : String) (read : Reader) (arguments : List String) : Outcome :=
  match Request.ofArguments arguments with
  | .error refusal => ⟨1, "", unlines [refusal.message program]⟩
  | .ok request => request.outcome read

end SqlCatalog

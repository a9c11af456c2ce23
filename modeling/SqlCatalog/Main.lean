import SqlCatalog.Audit

/-!
# The program

Reading files and printing: all that `Audit.run` leaves to do.
-/

namespace SqlCatalog.Program

/-- The name of the program in its usage. -/
def name : String := "sqlcatalog"

/-- The failure with this number in the system. Some of its errors come with the negated number. -/
def numberedFailure? (code : UInt32) : Option ReadFailure :=
  match if code < 0x80000000 then code else -code with
  | 20 => some .notDirectory
  | 21 => some .isDirectory
  | 36 => some .nameTooLong
  | _ => none

/-- The failure that an error of the file system stands for. -/
def readFailure (e : IO.Error) : ReadFailure :=
  match e with
  | .noFileOrDirectory .. => .missing
  | .inappropriateType _ code _ | .invalidArgument _ code _ =>
    (numberedFailure? code).getD (.other (toString e))
  | _ => .other (toString e)

/-- The text of a file. -/
def readSource (path : String) : IO (Except ReadFailure String) := do
  try
    let bytes ← IO.FS.readBinFile path
    match String.fromUTF8? bytes with
    | some text => return .ok text
    | none => return .error .notUtf8
  catch e => return .error (readFailure e)

/-- Reading from files that were read before. -/
def reader (sources : List (String × Except ReadFailure String)) : Reader := fun path =>
  (sources.lookup path).getD (.error .missing)

end SqlCatalog.Program

open SqlCatalog in
/-- Reads the files of the request, prints the outcome and ends with its status. -/
def main (arguments : List String) : IO UInt32 := do
  let files := match Request.ofArguments arguments with
    | .ok request => request.files
    | .error _ => []
  let sources ← files.mapM fun path => do return (path, ← Program.readSource path)
  let outcome := Audit.run Program.name (Program.reader sources) arguments
  IO.eprint outcome.errors
  IO.print outcome.output
  return outcome.status

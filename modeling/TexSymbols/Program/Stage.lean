import TexSymbols.Dependencies.Resolver
import TexSymbols.Files.Inputs
import TexSymbols.Listing.Error
import TexSymbols.Log
import TexSymbols.ReadError
import TexSymbols.Warning

/-!
# Stages of a run

* `Failure` — why a run fails; `Failure.message`, the wording, and `Failure.fault?`, the cause if something could not be
  read.
* `Stage` — a computation that writes log lines and may fail.  It has no way to print: what is printed is a part of
  its result, so a stage that fails has printed nothing.
-/

namespace TexSymbols

/-- Why a run fails. -/
inductive Failure
  | unreadable (path : Path) (fault : Fault)
  | unreadableInput
  | unreadableDirectory (path : Path)
  | unwritable (path : Path)
  | invalidUsages (path : Path)
  | invalidPattern (pattern : Text)
  /-- The arguments name no file. -/
  | noInputs (args : List Text)
  /-- There is no section or no symbol. -/
  | noData
  | reading (e : ReadError)
  | listing (e : ListingError)
  | dependencies (e : DependencyError)
deriving DecidableEq

def Failure.message : Failure → Text
  | unreadable path _ => "failed to read " ++ path
  | unreadableInput => "failed to read stdin"
  | unreadableDirectory path => "failed to read directory: " ++ path
  | unwritable path => "failed to write " ++ path
  | invalidUsages path => "invalid usage map in " ++ path
  | invalidPattern pattern => "invalid glob pattern: " ++ pattern
  | noInputs args => "no input files found in: " ++ Text.join " " args
  | noData => "Not enough data found."
  | reading e => e.message
  | listing e => e.message
  | dependencies e => e.message

/-- What was wrong with a file, a directory or the standard input that could not be read. -/
def Failure.fault? : Failure → Option Fault
  | unreadable _ fault => some fault
  | unreadableInput => some .notText
  | unreadableDirectory _ => some .denied
  | dependencies (.unreadable _ fault) => some fault
  | _ => none

/-- An argument that is refused makes a run fail. -/
def Refusal.failure : Refusal → Failure
  | unreadable directory => .unreadableDirectory directory
  | malformed pattern => .invalidPattern pattern

/-- The log line of a notice. -/
def Notice.logLine (n : Notice) : LogLine := ⟨.warn, n.message⟩

/-- A computation that writes log lines and may fail. -/
abbrev Stage (α : Type) := ExceptT Failure (StateM (List LogLine)) α

namespace Stage

variable {α ε : Type}

/-- Write log lines. -/
def report (lines : List LogLine) : Stage Unit := modify (· ++ lines)

/-- A result that was reached without logging; `f` makes its error a failure of the run. -/
def ofExcept (f : ε → Failure) (result : Except ε α) : Stage α :=
  match result with
  | .ok a => pure a
  | .error e => throw (f e)

/-- The result of a stage, and all that it logged. -/
def outcome (s : Stage α) : Except Failure α × List LogLine := (ExceptT.run s).run []

end Stage

end TexSymbols

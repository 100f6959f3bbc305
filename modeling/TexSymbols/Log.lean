import TexSymbols.Text

/-!
# Log lines

* `Level` — how important a log line is; `Level.ofName?` reads a level from its name.
* `LogLine` — a level and a message.
* `visibleAt` — the lines that a chosen level lets through.
-/

namespace TexSymbols

/-- Importance of a log line, the most important first. -/
inductive Level
  | error
  | warn
  | info
  | debug
  | trace
deriving DecidableEq

namespace Level

/-- The rank of a level; a smaller one is more important. -/
def rank : Level → Nat
  | error => 1
  | warn => 2
  | info => 3
  | debug => 4
  | trace => 5

def name : Level → Text
  | error => "ERROR"
  | warn => "WARN"
  | info => "INFO"
  | debug => "DEBUG"
  | trace => "TRACE"

def all : List Level := [error, warn, info, debug, trace]

/-- Reads a level in capital or small letters; `off`, which lets nothing through, is the level `none`. -/
def ofName? (t : Text) : Option (Option Level) :=
  let t := t.map Char.toUpper
  if t = ("OFF" : Text) then some none else (all.find? fun l => l.name = t).map some

end Level

/-- A line of the log. -/
structure LogLine where
  level : Level
  message : Text
deriving DecidableEq

/-- The lines that are at least as important as the chosen level. -/
def visibleAt (limit : Option Level) (log : List LogLine) : List LogLine :=
  match limit with
  | none => []
  | some l => log.filter fun line => line.level.rank ≤ l.rank

end TexSymbols

import TexSymbols.OrderedMap
import TexSymbols.Tex.Argument
import TexSymbols.Tex.Command
import TexSymbols.Tex.Comment

/-!
# Where documents use commands

* `Use`, `UsageMap` — the uses of each command, in order.
* `usesIn` — the uses in one document: a command is recorded at every appearance up to its first one on a line that
  has a label or stands below one.
* `UsageMap.merge` — uses of several documents together.
* `firstLabelled` — the label of the first use that has one.
-/

namespace TexSymbols

/-- One use of a command. -/
structure Use where
  file : Text
  /-- Counted from one. -/
  line : Nat
  /-- The last label on this line or above it. -/
  label : Option Text
deriving DecidableEq

/-- Uses by command, in order of first appearance. -/
abbrev UsageMap := OrderedMap Text (List Use)

namespace UsageMap

/-- Add uses of a command behind those that are recorded. -/
def record (m : UsageMap) (command : Text) (uses : List Use) : UsageMap :=
  OrderedMap.insert m command ((m.find? command).getD [] ++ uses)

/-- The uses of both maps. -/
def merge (m other : UsageMap) : UsageMap := other.entries.foldl (fun m e => record m e.1 e.2) m

end UsageMap

/-- The label of the first use that has one. -/
def firstLabelled (uses : List Use) : Option Text := uses.findSome? Use.label

/-- The state of going through a document. -/
structure UseScan where
  uses : UsageMap
  /-- Commands whose uses are no longer recorded. -/
  closed : List Text
  label : Option Text

namespace UseScan

/-- A command of a line. -/
def command (file : Text) (line : Nat) (s : UseScan) (c : Text) : UseScan :=
  { s with
    uses := if c ∈ s.closed then s.uses else UsageMap.record s.uses c [⟨file, line, s.label⟩]
    closed := if s.label.isSome then c :: s.closed else s.closed }

/-- A line: first its last label, then its commands. -/
def line (file : Text) (s : UseScan) (numbered : Text × Nat) : UseScan :=
  let text := stripComment numbered.1
  (commands text).foldl (command file numbered.2) { s with label := (labels text).getLast?.or s.label }

end UseScan

/-- The uses of commands in a document, comments apart. -/
def usesIn (file text : Text) : UsageMap :=
  (((Text.lines text).zipIdx 1).foldl (UseScan.line file) ⟨.empty, [], none⟩).uses

/-- The uses of commands in several documents, each given by file name and text. -/
def usesInAll (documents : List (Text × Text)) : UsageMap :=
  documents.foldl (fun m d => UsageMap.merge m (usesIn d.1 d.2)) .empty

end TexSymbols

import TexSymbols.Text.Quoted
import TexSymbols.Text.Utf8
import TexSymbols.Usage
import TexSymbols.Yaml.Document
import TexSymbols.Yaml.Scalar

/-!
# Usage maps as YAML

A usage map is written as a mapping from commands to sequences of uses, in order, under two comment lines that name the
scanned files.

* `UsageMap.toYaml` — the document.
* `UsageMap.ofYaml?` — reads a usage map: fields that are not known are ignored, a missing label is no label, and of
  several entries for a command the last one counts.
-/

namespace TexSymbols

open Yaml (spaces writeScalar endLine)

/-- A use as a mapping whose fields stand at column `column`, the first field being on a line that has begun. -/
def Use.toYaml (column : Nat) (u : Use) : Text :=
  let label : Text := (u.label.map (writeScalar (column + 2))).getD "null"
  endLine ("filename: " ++ writeScalar (column + 2) u.file) ++
    (spaces column ++ "line: " ++ Decimal.digits u.line ++ "\n") ++
    endLine (spaces column ++ "last_label: " ++ label)

namespace UsageMap

/-- Whether a command may be written as a key on its own line: no breaks, at most 128 bytes. -/
def isSimpleKey (command : Text) : Bool :=
  !command.any Yaml.isBreak && (Utf8.encode command).length ≤ 128

/-- The uses of a command, each behind a dash at column `column`. -/
def usesToYaml (column : Nat) (uses : List Use) : List Text :=
  uses.map fun u => "- " ++ u.toYaml (column + 2)

/-- A command and its uses. -/
def entryToYaml (command : Text) (uses : List Use) : Text :=
  if isSimpleKey command then
    let key := writeScalar 2 command ++ ":"
    if uses.isEmpty then key ++ " []\n" else key ++ "\n" ++ (usesToYaml 0 uses).flatten
  else
    let key := endLine ("? " ++ writeScalar 2 command) ++ ":"
    if uses.isEmpty then key ++ " []\n" else key ++ " " ++ Text.join "  " (usesToYaml 2 uses)

/-- The mapping alone. -/
def bodyToYaml (m : UsageMap) : Text :=
  if m.entries.isEmpty then "\x7b\x7d\n" else m.entries.flatMap fun e => entryToYaml e.1 e.2

/-- The document for uses found in the given files. -/
def toYaml (m : UsageMap) (files : List Text) : Text :=
  "# YAML dump of symbols found in files " ++ Text.quotedList files ++ "\n# \n" ++ bodyToYaml m

end UsageMap

/-! ## Reading -/

open Yaml (Document Following Node)

/-- The text of a scalar. -/
def readText (d : Document) (n : Node) : Following Text := do StateT.lift (← d.follow n).text?

/-- The tag of an integer. -/
def integerTag : Text := "tag:yaml.org,2002:int"

/-- Whether a scalar may be a number. -/
def mayBeNumber (tag : Option Text) (form : Yaml.Form) : Bool :=
  form = .plain || form = .literal && tag = some integerTag

/-- A line number: a decimal, hexadecimal, octal or binary number of at most 64 bits. -/
def lineNumber? : Node → Option Nat
  | .scalar tag form t =>
    if !mayBeNumber tag form || Yaml.isZeroLed t then none
    else (Yaml.basedNumeral? ((Text.removePrefix? "+" t).getD t)).filter (· < Nat.pow 2 64)
  | _ => none

/-- The tag of a null. -/
def nullTag : Text := "tag:yaml.org,2002:null"

/-- A label, or none where the node is null.  With a tag only a null that is written out is null. -/
def label? : Node → Option (Option Text)
  | .scalar tag form t =>
    match form, tag with
    | .plain, none => some (if Yaml.isNull t then none else some t)
    | .plain, some tag => if tag ≠ nullTag then some (some t) else if Yaml.isNull t && t ≠ [] then some none else none
    | _, _ => some (some t)
  | _ => none

/-- The fields of a use as far as they are given. -/
structure UseFields where
  file : Option Text := none
  line : Option Nat := none
  label : Option (Option Text) := none

/-- The fields with one more, which may not be given already; a field that is not known counts for nothing. -/
def UseFields.read (d : Document) (fields : UseFields) (field : Node × Node) : Following UseFields := do
  let name ← readText d field.1
  if name = "filename".toList then
    if fields.file.isSome then failure
    return { fields with file := some (← readText d field.2) }
  else if name = "line".toList then
    if fields.line.isSome then failure
    return { fields with line := some (← StateT.lift (lineNumber? (← d.follow field.2))) }
  else if name = "last_label".toList then
    if fields.label.isSome then failure
    return { fields with label := some (← StateT.lift (label? (← d.follow field.2))) }
  else return fields

/-- The use with these fields; only the label may be missing. -/
def UseFields.use? (fields : UseFields) : Option Use := do
  return ⟨← fields.file, ← fields.line, fields.label.join⟩

/-- A use: a mapping with at least a file name and a line. -/
def readUse (d : Document) (n : Node) : Following Use := do
  let pairs ← StateT.lift (← d.follow n).pairs?
  StateT.lift (← pairs.foldlM (UseFields.read d) {}).use?

/-- The uses of a command. -/
def readUses (d : Document) (n : Node) : Following (List Use) := do
  (← StateT.lift (← d.follow n).items?).mapM (readUse d)

/-- A command and its uses. -/
def readEntry (d : Document) (entry : Node × Node) : Following (Text × List Use) :=
  return (← readText d entry.1, ← readUses d entry.2)

/-- Reads a usage map. -/
def UsageMap.ofYaml? (t : Text) : Option UsageMap := do
  let d ← Yaml.read? t
  let entries : Following (List (Text × List Use)) := do
    (← StateT.lift (← d.follow d.root).pairs?).mapM (readEntry d)
  return .ofList (← entries.run' 0)

end TexSymbols

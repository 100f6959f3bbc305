import TexSymbols.Yaml.Tag

/-!
# Tokens of YAML

* `Yaml.Form` — the forms in which a scalar can stand there, as far as its meaning depends on them.
* `Yaml.Token` — marks, properties of nodes and scalars, and where collections in block style begin and end.
-/

namespace TexSymbols.Yaml

/-- The form of a scalar. -/
inductive Form
  /-- Without marks around it: it may be a null or a number. -/
  | plain
  /-- A literal block: it may be a number if its tag says so. -/
  | literal
  /-- Quotes or a folded block: it is a string. -/
  | other
deriving DecidableEq

/-- A token of a document. -/
inductive Token
  | directive (d : Directive)
  | documentStart
  | documentEnd
  | streamEnd
  /-- A sequence in block style begins, in front of its first entry. -/
  | blockSequenceStart
  /-- A mapping in block style begins, in front of its first key. -/
  | blockMappingStart
  /-- A collection in block style ends. -/
  | blockEnd
  | flowSequenceStart
  | flowSequenceEnd
  | flowMappingStart
  | flowMappingEnd
  /-- The dash of an entry. -/
  | entry
  /-- The comma between entries in flow style. -/
  | comma
  /-- A key follows: a question mark, or the beginning of a text that a colon makes a key. -/
  | key
  /-- The colon before a value. -/
  | value
  | aliasOf (name : Text)
  | anchor (name : Text)
  | tag (t : TagText)
  | scalar (form : Form) (text : Text)
deriving DecidableEq

end TexSymbols.Yaml

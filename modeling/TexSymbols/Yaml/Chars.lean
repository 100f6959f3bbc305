import TexSymbols.Text

/-!
# Characters of YAML

* `Yaml.isBreak` — line breaks: line feed, carriage return, next line, line and paragraph separator.
* `Yaml.isBlank` — space and tab.
* `Yaml.isPrintable` — characters that may be written as they are; `Yaml.isReadable` — characters that may be read.
* `Yaml.endsWord` — whether a word ends before the given rest: at its end, a blank or a break.
* `Yaml.startsMarker` — whether a document begins or ends with the given rest of a line.
-/

namespace TexSymbols.Yaml

def isBreak (c : Char) : Bool := c ∈ ['\n', '\r', '\u0085', '\u2028', '\u2029']

def isBlank (c : Char) : Bool := c = ' ' || c = '\t'

/-- Characters that may stand outside of an escape; of the control characters only the line feed. -/
def isPrintable (c : Char) : Bool :=
  let n := c.toNat
  n == 0x0A || (0x20 ≤ n && n ≤ 0x7E) || (0xA0 ≤ n && n != 0xFEFF && n != 0xFFFE && n != 0xFFFF)

/-- Characters that may stand in a document. -/
def isReadable (c : Char) : Bool := isPrintable c || c ∈ ['\t', '\r', '\u0085', '\ufeff']

/-- Characters of the names of anchors, tag handles and directives. -/
def isWordChar (c : Char) : Bool := c.isAlphanum || c = '_' || c = '-'

/-- Whether nothing of a word follows. -/
def endsWord : Text → Bool
  | [] => true
  | c :: _ => isBlank c || isBreak c || c = '\x00'

/-- Whether the mark of three characters stands here as a word. -/
def startsWith (mark : Text) (t : Text) : Bool := (Text.removePrefix? mark t).any endsWord

/-- Whether one of the marks between documents stands here. -/
def startsMarker (t : Text) : Bool := startsWith "---" t || startsWith "..." t

def spaces (n : Nat) : Text := List.replicate n ' '

end TexSymbols.Yaml

import TexSymbols.Decimal
import TexSymbols.Yaml.Quoted

/-!
# Properties of nodes, and directives

* `Yaml.readAnchor?` — the name behind `&` or `*`.
* `Yaml.readTag?` — a tag: its handle and its suffix.  Behind a percent sign, two hexadecimal digits stand for an octet;
  a tag is kept as the characters of its octets.
* `Yaml.Directive`, `Yaml.readDirective?` — a line that begins with a percent sign.
-/

namespace TexSymbols.Yaml

/-- The name of an anchor, and what follows it. -/
def readAnchor? (t : Text) : Option (Text × Text) :=
  let name := t.takeWhile isWordChar
  let rest := t.dropWhile isWordChar
  if !name.isEmpty && (endsWord rest || rest.head?.any (· ∈ ['?', ':', ',', ']', '}', '%', '@', '`'])) then
    some (name, rest)
  else none

/-- Characters that stand for themselves in a tag; commas and brackets only where the tag has an end mark. -/
def isUriChar (delimited : Bool) (c : Char) : Bool :=
  isWordChar c || c ∈ [';', '/', '?', ':', '@', '&', '=', '+', '$', '.', '!', '~', '*', '\'', '(', ')'] ||
    delimited && c ∈ [',', '[', ']']

/-- The number of octets that follow the first one of an encoded character. -/
def followers? (octet : Nat) : Option Nat :=
  if octet < 0x80 then some 0
  else if 0xC0 ≤ octet ∧ octet < 0xE0 then some 1
  else if 0xE0 ≤ octet ∧ octet < 0xF0 then some 2
  else if 0xF0 ≤ octet ∧ octet < 0xF8 then some 3
  else none

/-- The characters of a tag, of which the next `awaited` octets belong to an encoded character, and what follows them. -/
def readUri? (delimited : Bool) (awaited : Nat) : Text → Option (Text × Text)
  | '%' :: a :: b :: r => do
    let octet ← hexValue? [a, b]
    let awaited ←
      if awaited = 0 then followers? octet
      else if octet / 64 = 2 then some (awaited - 1)
      else none
    prepend [Char.ofNat octet] (readUri? delimited awaited r)
  | c :: r =>
    if awaited ≠ 0 ∨ c = '%' then none
    else if isUriChar delimited c then prepend [c] (readUri? delimited 0 r)
    else some ([], c :: r)
  | [] => if awaited = 0 then some ([], []) else none

/-- The characters of a tag, at least one.  They count up to the first null. -/
def readUriText? (delimited : Bool) (t : Text) : Option (Text × Text) := do
  let (uri, rest) ← readUri? delimited 0 t
  if uri.isEmpty then none else some (uri.takeWhile (· ≠ '\x00'), rest)

/-- A tag as it is written: a handle, empty if the suffix is the whole tag, and a suffix. -/
structure TagText where
  handle : Text
  suffix : Text
deriving DecidableEq

/-- Whether a tag ends before the given rest. -/
def endsTag (flow : Bool) (rest : Text) : Bool := endsWord rest || flow && rest.head? = some ','

/-- Reads a tag behind its first exclamation mark. -/
def readTagText? : Text → Option (TagText × Text)
  | '<' :: r => do
    let (uri, rest) ← readUriText? true r
    return (⟨[], uri⟩, ← Text.removePrefix? ">" rest)
  | r =>
    let word := r.takeWhile isWordChar
    match r.dropWhile isWordChar with
    | '!' :: rest => do
      let (uri, rest) ← readUriText? false rest
      return (⟨"!" ++ word ++ "!", uri⟩, rest)
    | rest => do
      let (uri, rest) ← readUri? false 0 rest
      let suffix := (word ++ uri).takeWhile (· ≠ '\x00')
      return (if suffix.isEmpty then ⟨[], "!"⟩ else ⟨"!", suffix⟩, rest)

/-- A tag behind its first exclamation mark, and what follows it. -/
def readTag? (flow : Bool) (t : Text) : Option (TagText × Text) := (readTagText? t).filter fun p => endsTag flow p.2

/-! ## Directives -/

/-- What a directive says. -/
inductive Directive
  /-- The document is written in a known version of YAML. -/
  | version
  /-- Tags with the handle begin with the text. -/
  | tag (handle beginning : Text)
deriving DecidableEq

/-- A version number of at most nine digits. -/
def readVersionNumber? (t : Text) : Option (Nat × Text) :=
  let digits := t.takeWhile Char.isDigit
  if digits.isEmpty || 9 < digits.length then none else some (Decimal.value digits, t.dropWhile Char.isDigit)

/-- Reads version 1.1 or 1.2. -/
def readVersion? (t : Text) : Option Text := do
  let (major, rest) ← readVersionNumber? (t.dropWhile isBlank)
  let (minor, rest) ← readVersionNumber? (← Text.removePrefix? "." rest)
  if major = 1 ∧ (minor = 1 ∨ minor = 2) then some rest else none

/-- Reads a handle and what it stands for. -/
def readHandle? (t : Text) : Option (Directive × Text) := do
  let rest ← Text.removePrefix? "!" (t.dropWhile isBlank)
  let word := rest.takeWhile isWordChar
  let (handle, rest) ←
    match rest.dropWhile isWordChar with
    | '!' :: rest => some ("!" ++ word ++ "!", rest)
    | rest => if word.isEmpty then some (("!" : Text), rest) else none
  if rest.head?.any isBlank then
    let (uri, rest) ← readUriText? true (rest.dropWhile isBlank)
    if endsWord rest then some (.tag handle uri, rest) else none
  else none

/-- What follows a line in which only blanks and a comment are left. -/
def passRestOfLine? (t : Text) : Option Text :=
  match t.dropWhile isBlank with
  | [] => some []
  | c :: r => if c = '#' ∨ isBreak c then some ((c :: r).dropWhile (!isBreak ·)).tail else none

/-- A directive behind its percent sign, and what follows its line. -/
def readDirective? (t : Text) : Option (Directive × Text) := do
  let name := t.takeWhile isWordChar
  let rest := t.dropWhile isWordChar
  let (d, rest) ←
    if !endsWord rest then none
    else if name = "YAML".toList then (readVersion? rest).map fun rest => (Directive.version, rest)
    else if name = "TAG".toList then readHandle? rest
    else none
  return (d, ← passRestOfLine? rest)

end TexSymbols.Yaml

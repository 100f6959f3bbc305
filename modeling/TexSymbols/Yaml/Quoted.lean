import TexSymbols.Yaml.Gap

/-!
# Reading quoted scalars

* `Yaml.readSingle?`, `Yaml.readDouble?` — the text up to the closing quote, and the cursor behind it.  A mark between
  documents may not stand at the beginning of a line.
* `Yaml.escaped?`, `Yaml.hexChar?` — the characters that escapes stand for.
-/

namespace TexSymbols.Yaml

/-- Whether a mark between documents stands at the beginning of a line. -/
def atMarker (p : Position) (t : Text) : Bool := p.column == 0 && startsMarker t

/-- The position behind some characters that are no breaks. -/
def Position.right (p : Position) (n : Nat) : Position := ⟨p.line, p.column + n⟩

/-- What stands up to the closing single quote. -/
def readSingle? (gap : Gap) (p : Position) : Text → Option (Text × Cursor)
  | [] => none
  | '\'' :: '\'' :: r => prepend (gap.text ++ ['\'']) (readSingle? .empty (p.right 2) r)
  | '\'' :: r => some (gap.text, ⟨r, p.right 1⟩)
  | c :: r =>
    if isBreak c || isBlank c then readSingle? (gap.add c) (p.after c) r
    else if atMarker p (c :: r) then none
    else prepend (gap.text ++ [c]) (readSingle? .empty (p.after c) r)

/-- The number with the given hexadecimal digits. -/
def hexValue? (digits : List Char) : Option Nat := do
  let values ← digits.mapM fun c =>
    if c.isDigit then some (c.toNat - 48)
    else if 'a' ≤ c ∧ c ≤ 'f' then some (c.toNat - 87)
    else if 'A' ≤ c ∧ c ≤ 'F' then some (c.toNat - 55)
    else none
  return values.foldl (fun v d => 16 * v + d) 0

/-- The character with the given hexadecimal digits. -/
def hexChar? (digits : List Char) : Option Char := do
  let n ← hexValue? digits
  if n.isValidChar then some (Char.ofNat n) else none

/-- The character of a short escape. -/
def escaped? (letter : Char) : Option Char :=
  ([('0', '\x00'), ('a', '\x07'), ('b', '\x08'), ('t', '\t'), ('\t', '\t'), ('n', '\n'), ('v', '\x0b'), ('f', '\x0c'),
    ('r', '\r'), ('e', '\x1b'), (' ', ' '), ('"', '"'), ('/', '/'), ('\\', '\\'), ('N', '\u0085'), ('_', '\u00a0'),
    ('L', '\u2028'), ('P', '\u2029')] : List (Char × Char)).lookup letter

/-- What stands up to the closing double quote. -/
def readDouble? (gap : Gap) (p : Position) : Text → Option (Text × Cursor)
  | [] => none
  | '"' :: r => some (gap.text, ⟨r, p.right 1⟩)
  | '\\' :: 'x' :: a :: b :: r => do
    let c ← hexChar? [a, b]
    prepend (gap.text ++ [c]) (readDouble? .empty (p.right 4) r)
  | '\\' :: 'u' :: a :: b :: c :: d :: r => do
    let c ← hexChar? [a, b, c, d]
    prepend (gap.text ++ [c]) (readDouble? .empty (p.right 6) r)
  | '\\' :: 'U' :: a :: b :: c :: d :: e :: f :: g :: h :: r => do
    let c ← hexChar? [a, b, c, d, e, f, g, h]
    prepend (gap.text ++ [c]) (readDouble? .empty (p.right 10) r)
  | '\\' :: c :: r =>
    if isBreak c then prepend gap.text (readDouble? (.breaks none []) ((p.right 1).after c) r)
    else do
      let c ← escaped? c
      prepend (gap.text ++ [c]) (readDouble? .empty (p.right 2) r)
  | c :: r =>
    if isBreak c || isBlank c then readDouble? (gap.add c) (p.after c) r
    else if atMarker p (c :: r) then none
    else prepend (gap.text ++ [c]) (readDouble? .empty (p.after c) r)

end TexSymbols.Yaml

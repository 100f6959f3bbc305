import TexSymbols.Decimal.Single

/-!
# Writing LaTeX

* `Tex.escape` — a text that LaTeX typesets literally.
* `Tex.teletype`, `Tex.emphasised`, `Tex.small`, `Tex.math`, `Tex.coloured`, `Tex.asTyped` — a text inside the
  command or group that gives it its look.
-/

namespace TexSymbols

/-- A colour by its red, green and blue parts. -/
structure Rgb where
  red : Single
  green : Single
  blue : Single
deriving DecidableEq

namespace Rgb

def grey : Rgb := ⟨.half, .half, .half⟩
def darkRed : Rgb := ⟨.half, .zero, .zero⟩
def darkGreen : Rgb := ⟨.zero, .threeTenths, .zero⟩
def darkBlue : Rgb := ⟨.zero, .zero, .half⟩

end Rgb

namespace Tex

/-- The text of one character typeset literally. -/
def escapeChar (c : Char) : Text :=
  if c = '\\' then "\\textbackslash\x7b\x7d"
  else if c ∈ ['{', '}', '_', '#', '$', '%', '&'] then ['\\', c]
  else if c = '^' then "\\^\x7b\x7d"
  else if c = '~' then "\\~\x7b\x7d"
  else [c]

/-- The text typeset literally. -/
def escape (t : Text) : Text := t.flatMap escapeChar

/-- A command with one braced argument. -/
def applied (command argument : Text) : Text := command ++ "\x7b" ++ argument ++ "\x7d"

def teletype (t : Text) : Text := applied "\\texttt" t

def emphasised (t : Text) : Text := applied "\\emph" t

def small (t : Text) : Text := "\x7b\\small " ++ t ++ "\x7d"

/-- Inline mathematics. -/
def math (t : Text) : Text := "$" ++ t ++ "$"

def coloured (rgb : Rgb) (t : Text) : Text :=
  "\x7b\\color[rgb]\x7b" ++ Text.join "," [rgb.red.text, rgb.green.text, rgb.blue.text] ++ "\x7d" ++ t ++ "\x7d"

/-- Source text shown as it was typed: grey and in typewriter letters. -/
def asTyped (t : Text) : Text := coloured .grey (teletype (escape t))

end Tex

end TexSymbols

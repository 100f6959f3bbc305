import TexSymbols.Text.Visible

/-!
# Quoted text

A text between double quotes, on one line and with nothing invisible in it.

* `quoted` — quotes, backslashes, line feeds, carriage returns, tabs and NUL get a backslash and a letter,
  other characters that are not visible become `\u` and their code point in lowercase hexadecimal in braces.
* `quotedList` — a list of quoted texts in brackets.
-/

namespace TexSymbols.Text

/-- Lowercase hexadecimal digits of a number. -/
def hexadecimal (n : Nat) : Text := Nat.toDigits 16 n

/-- One character inside a quoted text. -/
def quotedChar (c : Char) : Text :=
  if c = '"' then "\\\""
  else if c = '\\' then "\\\\"
  else if c = '\n' then "\\n"
  else if c = '\r' then "\\r"
  else if c = '\t' then "\\t"
  else if c = '\x00' then "\\0"
  else if isVisible c then [c]
  else "\\u\x7b" ++ hexadecimal c.toNat ++ "\x7d"

/-- The text between double quotes. -/
def quoted (t : Text) : Text := '"' :: (t.flatMap quotedChar ++ ['"'])

/-- Quoted texts in brackets, separated by commas. -/
def quotedList (ts : List Text) : Text := "[" ++ join ", " (ts.map quoted) ++ "]"

end TexSymbols.Text

import TexSymbols.Tex.LongTable
import TexSymbols.Tex.Style

/-!
# Printed text

What the commands and rows of this library come to, character by character.  The statements about
printed files are written with these texts.

* `Decimal.digits_eq_toDigits`, `Text.join_eq_intercalate` — numerals and joined texts are those of
  the standard library.
* `Tex.printedChar`, `Tex.printedSource` — a character typeset literally, and source text as it was
  typed; `Tex.escapeChar_eq`, `Tex.asTyped_eq`.
* `Tex.coloured_eq`, `Tex.printedParts_grey` and so on — text in a colour, and the parts of each colour.
* `LongTable.Row.render_cells`, `LongTable.Row.render_spanning` — the line of a row.
-/

namespace TexSymbols

theorem Decimal.digits_eq_toDigits (n : Nat) : digits n = Nat.toDigits 10 n := by
  have hdigit : ∀ d < 10, digit d = d.digitChar := by decide
  fun_induction digits n with
  | case1 n h => rw [Nat.toDigits_of_lt_base h, hdigit n h]
  | case2 n h ih =>
    rw [ih, hdigit _ (Nat.mod_lt n (by decide)),
      Nat.toDigits_of_base_le (by decide) (Nat.le_of_not_lt h)]

theorem Text.join_eq_intercalate (sep : Text) (pieces : List Text) :
    join sep pieces = List.intercalate sep pieces := by
  induction pieces with
  | nil => rfl
  | cons piece pieces ih =>
    cases pieces with
    | nil => rw [join, List.intercalate_singleton]
    | cons next pieces => rw [join, List.intercalate_cons_cons, ih, List.append_assoc]

theorem Text.join_concat (sep : Text) (pieces : List Text) (last : Text) :
    join sep (pieces ++ [last]) = pieces.flatMap (· ++ sep) ++ last := by
  induction pieces with
  | nil => rfl
  | cons piece pieces ih =>
    rw [List.flatMap_cons, List.append_assoc, ← ih]
    cases pieces <;> rfl

namespace Tex

/-! ## Source text -/

/-- A character as it is printed to be typeset literally. -/
def printedChar : Char → Text
  | '\\' => "\\textbackslash\x7b\x7d"
  | '{' => "\\\x7b"
  | '}' => "\\\x7d"
  | '_' => "\\_"
  | '#' => "\\#"
  | '$' => "\\$"
  | '%' => "\\%"
  | '&' => "\\&"
  | '^' => "\\^\x7b\x7d"
  | '~' => "\\~\x7b\x7d"
  | c => [c]

theorem escapeChar_eq (c : Char) : escapeChar c = printedChar c := by
  unfold printedChar
  split
  case h_11 => simp_all [escapeChar]
  all_goals rfl

theorem escape_eq (t : Text) : escape t = t.flatMap printedChar :=
  congrArg t.flatMap (funext escapeChar_eq)

/-! ## Colours -/

/-- The parts of a colour as they are printed. -/
def printedParts (rgb : Rgb) : Text := Text.join "," [rgb.red.text, rgb.green.text, rgb.blue.text]

theorem coloured_eq {rgb : Rgb} {parts : Text} (h : printedParts rgb = parts) (t : Text) :
    coloured rgb t = "\x7b\\color[rgb]\x7b" ++ parts ++ "\x7d" ++ t ++ "\x7d" := by
  rw [← h]
  rfl

theorem printedParts_grey : printedParts .grey = "0.5,0.5,0.5" := by decide +kernel

theorem printedParts_darkRed : printedParts .darkRed = "0.5,0,0" := by decide +kernel

theorem printedParts_darkBlue : printedParts .darkBlue = "0,0,0.5" := by decide +kernel

theorem printedParts_darkGreen : printedParts .darkGreen = "0,0.3,0" := by decide +kernel

/-- Source text as it was typed. -/
def printedSource (t : Text) : Text :=
  "\x7b\\color[rgb]\x7b0.5,0.5,0.5\x7d\\texttt\x7b" ++ t.flatMap printedChar ++ "\x7d\x7d"

theorem asTyped_eq (t : Text) : asTyped t = printedSource t := by
  have hopen : ("\x7b\\color[rgb]\x7b0.5,0.5,0.5\x7d\\texttt\x7b" : Text) =
      "\x7b\\color[rgb]\x7b" ++ "0.5,0.5,0.5" ++ "\x7d" ++ ("\\texttt" ++ "\x7b") := rfl
  have hclose : ("\x7d\x7d" : Text) = "\x7d" ++ "\x7d" := rfl
  have hcoloured : asTyped t = _ := coloured_eq printedParts_grey _
  have htyped : teletype (escape t) = "\\texttt" ++ "\x7b" ++ escape t ++ "\x7d" := rfl
  unfold printedSource
  rw [hcoloured, htyped, escape_eq, hopen, hclose]
  simp only [List.append_assoc]

end Tex

namespace LongTable.Row

theorem render_cells {columns : Nat} {cs : List Text} (h : cs.length = columns) :
    Row.render columns (.cells cs) = Text.join " & " cs ++ " \\\\\n" := by
  show line (cs ++ List.replicate (columns - cs.length) []) = _
  rw [h, Nat.sub_self, List.replicate_zero, List.append_nil, line]

theorem render_spanning (columns : Nat) (lead : List Text) (span : Nat) (align text : Text) :
    Row.render columns (.spanning lead span align text) =
      lead.flatMap (· ++ (" & " : Text)) ++ ("\\multicolumn\x7b" ++ Nat.toDigits 10 span ++
        "\x7d\x7b" ++ align ++ "\x7d\x7b" ++ text ++ "\x7d") ++ " \\\\\n" := by
  rw [← Text.join_concat, ← Decimal.digits_eq_toDigits]
  rfl

end LongTable.Row

end TexSymbols

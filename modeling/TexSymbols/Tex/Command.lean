import TexSymbols.Text

/-!
# Commands in a text

A command is a backslash and one or more ASCII letters.  A backslash and any other character is a control
symbol and counts as one unit, so `a\\b` holds no `\b`.

* `commands` — every command of a text, in order, with repetitions.
* `distinctCommands` — each of them once, where it appears first.
-/

namespace TexSymbols

/-- A letter of a command name: an ASCII letter. -/
def isLetter (c : Char) : Bool := c.isAlpha

/-- Every command of the text, in order.  After a command the scan goes on within its letters, none of which
starts another one; after a control symbol it goes on behind the symbol. -/
def commands : Text → List Text
  | '\\' :: c :: r =>
    if isLetter c then ('\\' :: c :: r.takeWhile isLetter) :: commands r else commands r
  | _ :: r => commands r
  | [] => []

/-- Every command of the text once, in order of first appearance. -/
def distinctCommands (t : Text) : List Text := Text.distinct (commands t)

theorem commands_cons_of_ne {c : Char} (h : c ≠ '\\') (r : Text) : commands (c :: r) = commands r := by
  rw [commands]
  intro c' r' hc
  simp_all

end TexSymbols

import TexSymbols.Yaml.Quoted

/-!
# Reading plain scalars

Plain text ends at a comment, at a colon that ends a word and, within brackets and braces, at one of their marks.  It may
go on over lines that are indented far enough.

* `Yaml.startsPlain` — whether plain text may begin here.
* `Yaml.PlainScalar`, `Yaml.readPlain?` — a plain scalar, and whether line breaks were passed behind it.
-/

namespace TexSymbols.Yaml

/-- Marks that end plain text within brackets and braces. -/
def flowMarks : List Char := [',', '[', ']', '{', '}']

/-- Marks that do not begin plain text. -/
def indicators : List Char :=
  ['-', '?', ':', ',', '[', ']', '{', '}', '#', '&', '*', '!', '|', '>', '\'', '"', '%', '@', '`']

/-- Whether plain text may begin here. -/
def startsPlain (flow : Bool) : Text → Bool
  | [] => false
  | c :: r =>
    if c = '-' then !endsWord r
    else if c = '?' ∨ c = ':' then !flow && !endsWord r
    else !isBlank c && !isBreak c && c ∉ indicators

/-- A plain scalar.  White space behind it is passed; `atNewLine` says whether there were line breaks in it. -/
structure PlainScalar where
  text : Text
  cursor : Cursor
  atNewLine : Bool

/-- Whether a plain scalar ends here, at a character other than a blank or a break. -/
def endsPlain (flow : Bool) (margin : Nat) (gap : Gap) (p : Position) (t : Text) : Bool :=
  gap != .empty && (!flow && p.column < margin || atMarker p t || t.head? == some '#') ||
    match t with
    | [] => true
    | c :: r => c = ':' && endsWord r || flow && c ∈ flowMarks

/-- Reads plain text behind a gap.  A line belongs to it if it is indented by `margin` or more; a tab may not stand where
this indentation is missing.  Within brackets and braces, a colon may not stand before a mark. -/
def readPlain? (flow : Bool) (margin : Nat) (gap : Gap) (p : Position) : Text → Option PlainScalar
  | [] => some ⟨[], ⟨[], p⟩, gap.hasBreak⟩
  | c :: r =>
    if isBreak c || isBlank c then
      if c = '\t' && gap.hasBreak && p.column < margin then none
      else readPlain? flow margin (gap.add c) (p.after c) r
    else if endsPlain flow margin gap p (c :: r) then some ⟨[], ⟨c :: r, p⟩, gap.hasBreak⟩
    else if flow && c = ':' && r.head?.any (· ∈ '?' :: flowMarks) then none
    else (readPlain? flow margin .empty (p.after c) r).map fun s => { s with text := gap.text ++ c :: s.text }

end TexSymbols.Yaml

import TexSymbols.Yaml.Cursor

/-!
# Reading block scalars

A block scalar is a header (`|` or `>`, indentation, chomping) and the indented lines below it.

* `Yaml.Line` — a line and the break that ends it; `linesOf` and `textOf` take a text apart and put it together.
* `Yaml.readBlock?` — the text of a block scalar and the cursor behind it.
-/

namespace TexSymbols.Yaml

/-- A line and its break, which the last line may lack. -/
structure Line where
  content : Text
  ending : Text

/-- The lines of a text. -/
def linesOf : Text → List Line
  | [] => []
  | c :: r =>
    if isBreak c then ⟨[], [c]⟩ :: linesOf r
    else
      match linesOf r with
      | [] => [⟨[c], []⟩]
      | l :: ls => ⟨c :: l.content, l.ending⟩ :: ls

/-- The text of lines. -/
def textOf (lines : List Line) : Text := lines.flatMap fun l => l.content ++ l.ending

/-- What happens to the breaks at the end of a block scalar. -/
inductive Chomping
  | strip
  | clip
  | keep
deriving DecidableEq

/-- What the header of a block scalar says. -/
structure BlockHeader where
  folded : Bool
  indentation : Option Nat
  chomping : Chomping

/-- Reads the marks behind `|` or `>`: each of the two kinds at most once. -/
def readMarks (h : BlockHeader) : Text → BlockHeader × Text
  | '+' :: r => if h.chomping = .clip then readMarks { h with chomping := .keep } r else (h, '+' :: r)
  | '-' :: r => if h.chomping = .clip then readMarks { h with chomping := .strip } r else (h, '-' :: r)
  | d :: r =>
    if '1' ≤ d ∧ d ≤ '9' ∧ h.indentation.isNone then readMarks { h with indentation := some (d.toNat - 48) } r
    else (h, d :: r)
  | [] => (h, [])

/-- Whether only blanks and a comment stand in the rest of a line. -/
def isRestBlank (t : Text) : Bool :=
  match t.dropWhile isBlank with
  | [] => true
  | '#' :: _ => true
  | _ => false

/-- The number of spaces at the beginning of a line. -/
def indentOf (l : Line) : Nat := (l.content.takeWhile (· = ' ')).length

/-- Whether the line has nothing but spaces, and not more than `n` of them. -/
def isEmptyWithin (n : Nat) (l : Line) : Bool := l.content.all (· = ' ') && l.content.length ≤ n

/-- Whether a tab stands right behind the indentation of a line. -/
def hasTabIndent (l : Line) : Bool := (l.content.dropWhile (· = ' ')).head? = some '\t'

/-- The indentation of a block without stated one: that of its first line that is not empty, but at least `least`, and
not less than that of the lines before it.  None if a tab stands in the indentation. -/
def detectIndent? (least : Nat) (lines : List Line) : Option Nat :=
  let leading := lines.takeWhile fun l => l.content.all (· = ' ')
  let first := (lines.drop leading.length).head?
  if first.any hasTabIndent then none else some (((leading ++ first.toList).map indentOf).foldl max (max least 1))

/-- The text of the lines up to the last one that is not empty, lines folded together where both neighbours of a break
begin with text.  `pending` holds the breaks since the last text, `afterText` says whether that text began with no
blank; `none` before the first text. -/
def foldLines (pending : Text) (afterText : Option Bool) : List Line → Text × Text
  | [] => ([], pending)
  | l :: ls =>
    if l.content.isEmpty then foldLines (pending ++ l.ending) afterText ls
    else
      let indented := l.content.head?.any isBlank
      let before :=
        match pending with
        | '\n' :: more =>
          if afterText = some true && !indented then if more.isEmpty then [' '] else more else pending
        | _ => pending
      let (text, ending) := foldLines l.ending (some !indented) ls
      (before ++ l.content ++ text, ending)

/-- The text of lines and the breaks behind the last one that is not empty. -/
def literalLines : List Line → Text × Text
  | [] => ([], [])
  | l :: ls =>
    let (text, ending) := literalLines ls
    if text.isEmpty then if l.content.isEmpty then ([], l.ending ++ ending) else (l.content, l.ending ++ ending)
    else (l.content ++ l.ending ++ text, ending)

/-- The breaks that chomping leaves at the end.  Without any text there is no break that could be clipped. -/
def Chomping.apply (c : Chomping) (text ending : Text) : Text :=
  match c with
  | .strip => text
  | .clip => if text.isEmpty then [] else text ++ ending.take 1
  | .keep => text ++ ending

/-- The text of a block scalar with lines indented by `indent`, given the lines below its header, and the number of
lines that belong to it.  None if a tab stands in the indentation of the line that ends it. -/
def blockText? (h : BlockHeader) (indent : Nat) (below : List Line) : Option (Text × Nat) :=
  let own := below.takeWhile fun l => isEmptyWithin indent l || indent ≤ indentOf l
  if (below.drop own.length).head?.any hasTabIndent then none
  else
    let body := own.map fun l => { l with content := l.content.drop indent }
    let (text, ending) := if h.folded then foldLines [] none body else literalLines body
    some (h.chomping.apply text ending, own.length)

/-- Reads a block scalar that begins with `|` or `>`.  `margin` is the least indentation of its lines; a stated
indentation counts from the collection that holds the scalar, whose column is `margin - 1`. -/
def readBlock? (margin : Nat) (c : Cursor) : Option (Text × Cursor) :=
  match linesOf c.rest with
  | [] => none
  | first :: below => do
    let (h, rest) := readMarks ⟨first.content.head? = some '>', none, .clip⟩ first.content.tail
    if !isRestBlank rest then none
    else
      let indent ← match h.indentation with
        | some n => some (n + (margin - 1))
        | none => detectIndent? margin below
      let (text, count) ← blockText? h indent below
      return (text, c.pass (textOf (first :: below.take count)))

end TexSymbols.Yaml

import TexSymbols.Text

/-!
# Paths

A path is kept as it was written; what it means is a list of components.

* `Path.components` — the components of a path; slashes that follow one another count as one, and a single dot counts
  only at the beginning.
* `Path.le`, `Path.same` — the order of paths by their components, and equality in that order.
* `Path.lastName?`, `Path.parent`, `Path.extension?`, `Path.withoutExtension` — parts of a path.
* `Path.join` — a path that starts where another one leads.
-/

namespace TexSymbols

/-- A path as it is written. -/
abbrev Path := Text

/-- One step of a path. -/
inductive Component
  | root
  | current
  | parent
  | name (n : Text)
deriving DecidableEq

namespace Component

def rank : Component → Nat
  | root => 0
  | current => 1
  | parent => 2
  | name _ => 3

/-- The order of components; two names are in the order of texts. -/
def le : Component → Component → Bool
  | name m, name n => Text.le m n
  | a, b => a.rank ≤ b.rank

/-- What stands between two slashes, if it is a step. -/
def ofPiece? (piece : Text) : Option Component :=
  if piece = [] ∨ piece = ['.'] then none
  else if piece = ['.', '.'] then some parent
  else some (name piece)

/-- Lists of components, compared at the first difference; a beginning comes before the whole. -/
def listLe : List Component → List Component → Bool
  | [], _ => true
  | _ :: _, [] => false
  | a :: as, b :: bs => if a = b then listLe as bs else a.le b

end Component

namespace Path

/-- What stands between the slashes. -/
def pieces (p : Path) : List Text := Text.splitOn '/' p

def ofPieces (ps : List Text) : Path := Text.join "/" ps

def isAbsolute (p : Path) : Bool := p.head? = some '/'

def components (p : Path) : List Component :=
  let steps := p.pieces.filterMap Component.ofPiece?
  if p.isAbsolute then .root :: steps
  else if p.pieces.head? = some ['.'] then .current :: steps
  else steps

/-- The order of paths by components. -/
def le (p q : Path) : Bool := Component.listLe p.components q.components

/-- Whether two paths have the same components. -/
def same (p q : Path) : Bool := p.components = q.components

/-- A piece that leads nowhere. -/
def isIdle (piece : Text) : Bool := piece = [] || piece = ['.']

/-- Pieces without the idle ones at the end. -/
def trimIdle (ps : List Text) : List Text := (ps.reverse.dropWhile isIdle).reverse

/-- The pieces before the last name, and that name; none if the path does not end in a name. -/
def splitName? (p : Path) : Option (List Text × Text) :=
  match p.pieces.reverse.dropWhile isIdle with
  | [] => none
  | n :: before => if n = ['.', '.'] then none else some (before.reverse, n)

/-- The name that a path ends in. -/
def lastName? (p : Path) : Option Text := p.splitName?.map Prod.snd

/-- The path before the last component; empty if there is none. -/
def parent (p : Path) : Path :=
  let trimmed : List Text → List Text
    | [] => []
    | first :: rest => first :: trimIdle rest
  match trimmed (trimmed p.pieces).dropLast with
  | [] => []
  | [[]] => "/"
  | ps => ofPieces ps

/-- The path `p` as seen from `dir`; an absolute path is the same from everywhere. -/
def join (dir p : Path) : Path :=
  if p.isAbsolute || dir.isEmpty then p
  else if dir.getLast? = some '/' then dir ++ p
  else dir ++ "/" ++ p

/-- A name cut at its last dot; a dot at the beginning belongs to the name. -/
def splitExtension (name : Text) : Text × Option Text :=
  match Text.splitLast '.' name with
  | none => (name, none)
  | some (stem, ext) => if stem = [] then (name, none) else (stem, some ext)

/-- What follows the last dot of the last name. -/
def extension? (p : Path) : Option Text := p.lastName?.bind fun n => (splitExtension n).2

/-- The path up to the last dot of its last name.  A path that does not end in a name stays as it is, and so does the
dot at the end where a lone dot would be left. -/
def withoutExtension (p : Path) : Path :=
  match p.splitName? with
  | none => p
  | some (before, n) =>
    let stem := (splitExtension n).1
    ofPieces (before ++ [if stem = ['.'] then ['.', '.'] else stem])

/-- The path with `.tex` added, unless it has an extension. -/
def withTexExtension (p : Path) : Path := if p.extension?.isSome then p else p ++ ".tex"

/-- Neighbours that have the same components become one, the first. -/
def mergeSame : List Path → List Path
  | [] => []
  | [p] => [p]
  | p :: q :: ps => if same p q then mergeSame (p :: ps) else p :: mergeSame (q :: ps)

/-- Paths in order, each component list once, in the spelling that came first. -/
def inOrder (ps : List Path) : List Path := mergeSame (ps.mergeSort le)

example : components "./a//b/./../c".toList =
    [.current, .name "a".toList, .name "b".toList, .parent, .name "c".toList] := by decide +kernel

example : withoutExtension "a.d/main.tar.tex".toList = "a.d/main.tar".toList := by decide +kernel

example : withoutExtension "a/..tex".toList = "a/..".toList := by decide +kernel

end Path

end TexSymbols

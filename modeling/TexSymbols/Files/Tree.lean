import TexSymbols.Files.Path
import TexSymbols.OrderedMap
import TexSymbols.Text.Utf8

/-!
# File trees

The files, directories and links below a working directory.  Of what lies above it nothing is known but that there are
directories.

* `FileTree` — a tree; each file and directory has a place, the names that lead to it.
* `FileTree.place?` — the place that a path leads to, through links.
* `FileTree.read?`, `FileTree.isFile`, `FileTree.isDirectory`, `FileTree.children?` — looking at the tree.
* `Fault`, `FileTree.fault` — why something cannot be read.
* `FileTree.canonical` — the one absolute path of a place.
* `FileTree.target?` — where a file of a given path can be written.
-/

namespace TexSymbols

/-- The names that lead from the working directory to a file or directory. -/
abbrev Place := List Text

instance instLawfulBEqPlace : LawfulBEq Place := inferInstanceAs (LawfulBEq (List Text))

/-- Why something cannot be read. -/
inductive Fault
  | missing
  | denied
  /-- The path leads on from what is no directory. -/
  | notDirectory
  | directory
  | tooLong
  | notText
deriving DecidableEq

def Fault.message : Fault → Text
  | missing => "No such file or directory (os error 2)"
  | denied => "Permission denied (os error 13)"
  | notDirectory => "Not a directory (os error 20)"
  | directory => "Is a directory (os error 21)"
  | tooLong => "File name too long (os error 36)"
  | notText => "stream did not contain valid UTF-8"

/-- The files and directories below the working directory, whose own absolute path is `base`. -/
structure FileTree where
  base : Text
  files : OrderedMap Place Bytes
  directories : List Place
  /-- Where links lead, through other links too. -/
  links : OrderedMap Place Place
  /-- The files and directories that may not be read; such a directory can still be entered. -/
  locked : List Place

namespace FileTree

def empty (base : Text) : FileTree := ⟨base, .empty, [], .empty, []⟩

/-- The tree with the directory and all that lead to it. -/
def addDirectory (t : FileTree) (place : Place) : FileTree :=
  let way := (List.range place.length).map fun n => place.take (n + 1)
  { t with directories := t.directories ++ way.filter (· ∉ t.directories) }

/-- The tree with the file and all directories that lead to it. -/
def addFile (t : FileTree) (place : Place) (content : Bytes) : FileTree :=
  let t := t.addDirectory place.dropLast
  { t with files := t.files.insert place content }

/-- The tree with a link and all directories that lead to it. -/
def addLink (t : FileTree) (place target : Place) : FileTree :=
  let t := t.addDirectory place.dropLast
  { t with links := t.links.insert place target }

/-- The tree in which a file or directory may not be read. -/
def lock (t : FileTree) (place : Place) : FileTree := { t with locked := place :: t.locked }

/-- All directories above the working directory; no name is spelled like this. -/
def above : Place := [['.', '.']]

def isDirectoryAt (t : FileTree) (place : Place) : Bool :=
  place.isEmpty || place = above || t.directories.contains place

def existsAt (t : FileTree) (place : Place) : Bool := t.isDirectoryAt place || t.files.contains place

/-- What is found at a place: itself, or what a link there leads to. -/
def found? (t : FileTree) (place : Place) : Option Place :=
  if t.existsAt place then some place else (t.links.find? place).filter t.existsAt

/-- One step from a place.  Only directories can be left, also by a step that leads nowhere. -/
def step? (t : FileTree) (place : Place) (piece : Text) : Option Place :=
  if !t.isDirectoryAt place then none
  else if Path.isIdle piece then some place
  else if piece = ['.', '.'] then some (if place.isEmpty || place = above then above else place.dropLast)
  else t.found? (place ++ [piece])

/-- The number of bytes that a path can have. -/
def pathLimit : Nat := 4095

/-- The number of bytes that a name can have. -/
def nameLimit : Nat := 255

/-- The place where a path starts, and the pieces that lead on from there. -/
def start? (t : FileTree) (p : Path) : Option (Place × List Text) :=
  if p.isEmpty || pathLimit < (Utf8.encode p).length then none
  else if p = t.base then some ([], [])
  else if p.isAbsolute then
    match Text.removePrefix? (t.base ++ "/") p with
    | some r => some ([], Path.pieces r)
    | none => some (above, p.pieces)
  else some ([], p.pieces)

/-- The place that a path leads to, if something is there. -/
def place? (t : FileTree) (p : Path) : Option Place := (t.start? p).bind fun s => s.2.foldlM t.step? s.1

def «exists» (t : FileTree) (p : Path) : Bool := (t.place? p).isSome

def isFile (t : FileTree) (p : Path) : Bool := ((t.place? p).map t.files.contains).getD false

def isDirectory (t : FileTree) (p : Path) : Bool := ((t.place? p).map t.isDirectoryAt).getD false

/-- The content of the file at a place. -/
def readAt? (t : FileTree) (place : Place) : Option Bytes := if place ∈ t.locked then none else t.files.find? place

/-- The content of a file. -/
def read? (t : FileTree) (p : Path) : Option Bytes := (t.place? p).bind t.readAt?

/-- The content of a file that holds text. -/
def readText? (t : FileTree) (p : Path) : Option Text := (t.read? p).bind Utf8.decode?

/-- Why a step leads nowhere. -/
def stepFault (t : FileTree) (place : Place) (piece : Text) : Fault :=
  if !t.isDirectoryAt place then .notDirectory
  else if nameLimit < (Utf8.encode piece).length then .tooLong
  else .missing

/-- Why the way from a place along the pieces does not end at a text. -/
def wayFault (t : FileTree) : Place → List Text → Fault
  | place, [] => if place ∈ t.locked then .denied else if place ∈ t.files.keys then .notText else .directory
  | place, piece :: pieces =>
    match t.step? place piece with
    | none => t.stepFault place piece
    | some next => t.wayFault next pieces

/-- Why a path does not lead to a text. -/
def fault (t : FileTree) (p : Path) : Fault :=
  match t.start? p with
  | none => if p.isEmpty then .missing else .tooLong
  | some (place, pieces) => t.wayFault place pieces

variable {t : FileTree} {place : Place} {p : Path}

theorem stepFault_ne_notText {piece : Text} : t.stepFault place piece ≠ .notText := by
  unfold stepFault
  split
  · exact Fault.noConfusion
  · split <;> exact Fault.noConfusion

theorem isSome_readAt?_iff : (t.readAt? place).isSome ↔ place ∉ t.locked ∧ place ∈ t.files.keys := by
  unfold readAt?
  split
  · simp [*]
  · simp [*, Option.isSome_iff_ne_none, OrderedMap.find?_eq_none]

theorem wayFault_eq_notText_iff {pieces : List Text} :
    t.wayFault place pieces = .notText ↔ ((pieces.foldlM t.step? place).bind t.readAt?).isSome := by
  induction pieces generalizing place with
  | nil =>
    show t.wayFault place [] = .notText ↔ (t.readAt? place).isSome
    rw [isSome_readAt?_iff, wayFault]
    split
    · simp [*]
    · split <;> simp [*]
  | cons piece pieces ih =>
    rw [wayFault, List.foldlM_cons]
    cases t.step? place piece with
    | none => exact iff_of_false stepFault_ne_notText Bool.false_ne_true
    | some next => exact ih

/-- **Nothing else is wrong with a path exactly if it leads to a file that can be read.** -/
theorem fault_eq_notText_iff : t.fault p = .notText ↔ (t.read? p).isSome := by
  unfold fault read? place?
  cases t.start? p with
  | none =>
    refine iff_of_false ?_ Bool.false_ne_true
    dsimp only
    split <;> exact Fault.noConfusion
  | some start => exact wayFault_eq_notText_iff

/-- The absolute path of a place. -/
def canonical (t : FileTree) (place : Place) : Path := t.base ++ place.flatMap fun n => '/' :: n

/-- Whether a way from one place to another leads through a directory that may not be read. -/
def isHidden (t : FileTree) (place below : Place) : Bool :=
  t.locked.any fun q => place.isPrefixOf q && q.isPrefixOf below && q.length < below.length

/-- The ways from a place to everything that can be seen below it.  They end at links. -/
def below (t : FileTree) (place : Place) : List (List Text) :=
  (t.directories ++ t.files.keys ++ t.links.keys).filterMap fun p =>
    if place.isPrefixOf p && place.length < p.length && !t.isHidden place p then some (p.drop place.length) else none

/-- The names in a directory, if it is one that may be read. -/
def children? (t : FileTree) (p : Path) : Option (List Text) :=
  (t.place? p).bind fun place =>
    if t.isDirectoryAt place && place ∉ t.locked then
      some ((t.below place).filterMap fun way =>
        match way with
        | [n] => some n
        | _ => none)
    else none

/-- The place where a file of this path can be written: in a directory, and not over one.  A link is kept, and what it
leads to is written. -/
def target? (t : FileTree) (p : Path) : Option Place := do
  let (start, pieces) ← t.start? p
  let name ← pieces.getLast?
  if Path.isIdle name || name = ['.', '.'] || nameLimit < (Utf8.encode name).length then none
  else
    let directory ← pieces.dropLast.foldlM t.step? start
    let place := (t.links.find? (directory ++ [name])).getD (directory ++ [name])
    if t.isDirectoryAt directory && t.isDirectoryAt place.dropLast && !t.isDirectoryAt place then some place else none

end FileTree

end TexSymbols

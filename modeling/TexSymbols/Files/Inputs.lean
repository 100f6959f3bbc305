import TexSymbols.Files.Pattern

/-!
# Input files

* `Refusal` — why an argument is refused.
* `FileTree.named` — the files that one argument names: a file itself, the definition files in a directory, or the
  files that a pattern stands for.
* `FileTree.inputs` — the files that several arguments name, in order and each once.
-/

namespace TexSymbols

/-- Why an argument stands for nothing. -/
inductive Refusal
  | unreadable (directory : Path)
  /-- Neither a file nor a directory nor a pattern. -/
  | malformed (pattern : Text)
deriving DecidableEq

/-- What an argument stands for. -/
inductive Named
  | files (paths : List Path)
  /-- A pattern that no file matches. -/
  | nothing
  | refused (r : Refusal)
deriving DecidableEq

namespace FileTree

/-- The extension of the files that a directory is searched for. -/
def sourceExtension : Text := "tex"

/-- The definition files among the names in a directory. -/
def sourcesIn (t : FileTree) (p : Path) (names : List Text) : List Path :=
  (names.map p.join).filter fun q => t.isFile q && q.extension? = some sourceExtension

/-- What an argument stands for. -/
def named (t : FileTree) (arg : Text) : Named :=
  if t.isFile arg then .files [arg]
  else if t.isDirectory arg then
    match t.children? arg with
    | none => .refused (.unreadable arg)
    | some names => .files (t.sourcesIn arg names)
  else
    match Pattern.parse? arg with
    | none => .refused (.malformed arg)
    | some pattern =>
      match (pattern.find t).filter t.isFile with
      | [] => .nothing
      | paths => .files paths

end FileTree

namespace Named

/-- The paths among what an argument stands for. -/
def paths : Named → List Path
  | files ps => ps
  | nothing => []
  | refused _ => []

def refusal? : Named → Option Refusal
  | refused r => some r
  | _ => none

end Named

/-- The files that arguments name, in order and each once; or why the first one is refused that is. -/
def FileTree.inputs (t : FileTree) (args : List Text) : Except Refusal (List Path) :=
  match args.findSome? fun arg => (t.named arg).refusal? with
  | some r => .error r
  | none => .ok (Path.inOrder (args.flatMap fun arg => (t.named arg).paths))

/-- The arguments that no file matches, up to the first one that is refused. -/
def FileTree.unmatched (t : FileTree) (args : List Text) : List Text :=
  (args.takeWhile fun arg => (t.named arg).refusal?.isNone).filter fun arg => t.named arg = .nothing

end TexSymbols

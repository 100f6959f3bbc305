import TexSymbols.Program.Run

/-!
# The command line

Collects what a run can look at, the working directory and the standard input, and puts its outcome where it belongs.
Nothing is decided here: the outcome comes from `Invocation.run`.
-/

namespace TexSymbols.CommandLine

/-- The tree with the file at `place`. -/
def addFile (t : FileTree) (place : Place) (entry : IO.FS.DirEntry) : IO FileTree := do
  match ← (IO.FS.readBinFile entry.path).toBaseIO with
  | .ok content => return t.addFile place content.toList
  | .error _ => return (t.addFile place []).lock place

/-- The tree with the link at `place`.  A file that lies elsewhere stands where the link to it is. -/
def addLink (t : FileTree) (place : Place) (entry : IO.FS.DirEntry) : IO FileTree := do
  match ← (IO.FS.realPath entry.path).toBaseIO with
  | .error _ => return t
  | .ok target =>
    let target := target.toString.toList
    if target = t.base then return t.addLink place []
    else
      match Text.removePrefix? (t.base ++ "/") target with
      | some r => return t.addLink place (Path.pieces r)
      | none => if ← entry.path.isDir then return t.addLink place FileTree.above else addFile t place entry

/-- The tree with the entries of the directory at `place` and all below. -/
partial def addEntries (t : FileTree) (place : Place) (entries : Array IO.FS.DirEntry) : IO FileTree := do
  let mut t := t
  for entry in entries do
    let here := place ++ [entry.fileName.toList]
    match (← entry.path.symlinkMetadata).type with
    | .dir =>
      t := t.addDirectory here
      match ← entry.path.readDir.toBaseIO with
      | .ok below => t ← addEntries t here below
      | .error _ => t := t.lock here
    | .symlink => t ← addLink t here entry
    | .file => t ← addFile t here entry
    | .other => pure ()
  return t

/-- The working directory, and the standard input if the command reads it. -/
def environment (command : Command) : IO Environment := do
  let here ← IO.currentDir
  let t := FileTree.empty here.toString.toList
  let tree ← match ← here.readDir.toBaseIO with
    | .ok entries => addEntries t [] entries
    | .error _ => pure (t.lock [])
  let stdin ← if command.readsInput then (← IO.getStdin).readBinToEnd else pure .empty
  return ⟨tree, stdin.toList⟩

/-- Print and write what a run gives. -/
def deliver (o : Outcome) : IO Unit := do
  for note in o.notes do
    IO.eprintln note.toString
  for line in o.log do
    IO.eprintln ("[" ++ line.level.name.toString ++ "] " ++ line.message.toString)
  IO.print o.stdout.toString
  if let some (place, content) := o.file then
    IO.FS.writeFile (Path.ofPieces place).toString content.toString
  if let some failure := o.failure then
    IO.eprintln ("Error: " ++ failure.message.toString)
    if let some fault := failure.fault? then
      IO.eprintln ("\nCaused by:\n    " ++ fault.message.toString)

/-- What is printed if the arguments are refused. -/
def usage : String :=
  "usage: tex-symbols [--log-level LEVEL] [--known-tag TAG]... COMMAND [OPTION]... [FILE]...\n" ++
    "commands: " ++ (Text.join ", " (CommandName.all.map CommandName.text)).toString

end TexSymbols.CommandLine

/-- Runs the command that the arguments name. -/
def main (args : List String) : IO UInt32 := do
  match TexSymbols.Invocation.read? (args.map String.toList) with
  | none =>
    IO.eprintln TexSymbols.CommandLine.usage
    return 2
  | some invocation =>
    let outcome := invocation.run (← TexSymbols.CommandLine.environment invocation.command)
    TexSymbols.CommandLine.deliver outcome
    return outcome.code.toUInt32

import TexSymbols.Dependencies
import TexSymbols.Log

/-!
# Dependencies of documents

The dependencies of a document are the files that it names, and the dependencies of those among them that exist.

* `DependencyError` — a file that cannot be read, or a document that includes itself.
* `Resolver` — results so far, by place, the documents that are being searched, and what there was to report; a failing
  search leaves no result.
* `Resolver.Search` — how a search ends; in any case it takes from the stack what it put there.
* `Resolver.level` — the search of one document; `Resolver.follow` — with the searches of the files that it names.
  Each level puts another file on the stack, so the search ends.
* `Resolver.rules` — the dependencies of a document in the form of makefile rules.
-/

namespace TexSymbols

/-- Why the dependencies of a document are not known. -/
inductive DependencyError
  | unreadable (path : Path) (fault : Fault)
  /-- The document is met again while it is searched; the stack leads from the root to it. -/
  | cycle (path : Path) (stack : List Path)
deriving DecidableEq

def DependencyError.message : DependencyError → Text
  | unreadable path _ => "failed to read " ++ path
  | cycle path stack => path ++ " includes itself; include stack: " ++ Text.join " -> " stack

/-- What is known from earlier searches, and what is being searched. -/
structure Resolver where
  /-- The dependencies of the documents that were searched to the end. -/
  cache : OrderedMap Place (List Path)
  /-- The documents whose search has not ended, the last one first. -/
  stack : List Place
  log : List LogLine

namespace FileTree

/-- The files that the document names. -/
def namedBy (t : FileTree) (kind : DocumentKind) (path : Path) : Except DependencyError (List Path) :=
  match t.read? path with
  | none => .error (.unreadable path (t.fault path))
  | some content => .ok (kind.namesIn path content)

/-- The files that are not on the stack. -/
def filesOff (t : FileTree) (stack : List Place) : List Place := t.files.keys.filter (· ∉ stack)

theorem mem_filesOff {t : FileTree} {path : Path} {place : Place} {stack : List Place} {deps : List Path}
    {kind : DocumentKind} (hp : t.place? path = some place) (hs : place ∉ stack)
    (hd : t.namedBy kind path = .ok deps) : place ∈ t.filesOff stack := by
  refine List.mem_filter.2 ⟨?_, by simpa using hs⟩
  unfold namedBy read? readAt? at hd
  rw [hp] at hd
  by_cases h : place ∈ t.files.keys
  · exact h
  · rw [Option.bind_some, OrderedMap.find?_eq_none.2 h, ite_self] at hd
    cases hd

theorem length_filesOff_lt {t : FileTree} {place : Place} {stack : List Place} (h : place ∈ t.filesOff stack) :
    (t.filesOff (place :: stack)).length < (t.filesOff stack).length := by
  have hsub : t.filesOff (place :: stack) = (t.filesOff stack).filter (· ≠ place) := by
    unfold filesOff
    rw [List.filter_filter]
    congr 1
    funext p
    simp only [List.mem_cons, not_or, ne_eq, Bool.decide_and]
  rw [hsub]
  exact List.length_filter_lt_length_iff_exists.2 ⟨place, h, by simp⟩

end FileTree

namespace Resolver

/-- A resolver that knows nothing. -/
def new : Resolver := ⟨.empty, [], []⟩

def report (r : Resolver) (line : LogLine) : Resolver := { r with log := r.log ++ [line] }

/-- The resolver while a document is searched. -/
def enter (r : Resolver) (place : Place) : Resolver := { r with stack := place :: r.stack }

/-- The resolver when the search of the last document on the stack has ended. -/
def leave (r : Resolver) : Resolver := { r with stack := r.stack.tail }

/-- The resolver that knows the dependencies of a document. -/
def store (r : Resolver) (path : Path) (place : Place) (deps : List Path) : Resolver :=
  { r.report ⟨.debug, path ++ ": " ++ Text.join " " deps⟩ with cache := r.cache.insert place deps }

/-- How a search ends that finds the given stack: with the dependencies or an error, and with what is known then. -/
structure Search (stack : List Place) where
  result : Except DependencyError (List Path)
  resolver : Resolver
  stack_eq : resolver.stack = stack

theorem Search.leave_stack {place : Place} {stack : List Place} (s : Search (place :: stack)) :
    s.resolver.leave.stack = stack := by
  rw [leave, s.stack_eq, List.tail_cons]

/-- The search, for a stack that is the one it found. -/
def Search.over {stack stack' : List Place} (s : Search stack) (h : stack = stack') : Search stack' :=
  ⟨s.result, s.resolver, s.stack_eq.trans h⟩

/-- The end of the search of a document that names the files `direct`, when those of these files have ended. -/
def Search.finish {place : Place} {stack : List Place} (s : Search (place :: stack)) (path : Path) (direct : List Path) :
    Search stack :=
  match s.result with
  | .error e => ⟨.error e, s.resolver.leave, s.leave_stack⟩
  | .ok further =>
    let deps := Text.distinct (direct ++ further)
    ⟨.ok deps, s.resolver.leave.store path place deps, s.leave_stack⟩

/-- Search those files that exist, one after the other up to the first error, for the dependencies of all. -/
def each (t : FileTree) {stack : List Place} (search : ∀ r : Resolver, r.stack = stack → Path → Search stack) :
    ∀ r : Resolver, r.stack = stack → List Path → Search stack
  | r, h, [] => ⟨.ok [], r, h⟩
  | r, h, path :: paths =>
    if t.exists path then
      let first := search r h path
      match first.result with
      | .error _ => first
      | .ok deps =>
        let others := each t search first.resolver first.stack_eq paths
        ⟨others.result.map (deps ++ ·), others.resolver, others.stack_eq⟩
    else each t search (r.report ⟨.warn, "Path not existing (" ++ path ++ ")"⟩) h paths

/-- The dependencies of a document, where `search` gives those of the files that it names. -/
def level (t : FileTree) (kind : DocumentKind) (r : Resolver) (path : Path)
    (search : ∀ place ∈ t.filesOff r.stack, ∀ inner : Resolver, inner.stack = place :: r.stack →
      Path → Search (place :: r.stack)) : Search r.stack :=
  match hp : t.place? path with
  | none => ⟨.error (.unreadable path (t.fault path)), r, rfl⟩
  | some place =>
    match r.cache.find? place with
    | some deps => ⟨.ok deps, r, rfl⟩
    | none =>
      if hs : place ∈ r.stack then
        ⟨.error (.cycle (t.canonical place) (r.stack.reverse.map t.canonical)), r, rfl⟩
      else
        match hd : t.namedBy kind path with
        | .error e => ⟨.error e, (r.enter place).leave, rfl⟩
        | .ok direct =>
          (each t (search place (FileTree.mem_filesOff hp hs hd)) (r.enter place) rfl direct).finish path direct

/-- The dependencies of a document. -/
def follow (t : FileTree) (kind : DocumentKind) (r : Resolver) (path : Path) : Search r.stack :=
  level t kind r path fun _ _hplace inner hinner named => (follow t kind inner named).over hinner
termination_by (t.filesOff r.stack).length
decreasing_by exact hinner ▸ FileTree.length_filesOff_lt _hplace

/-- The dependencies of a root document. -/
def recursive (t : FileTree) (kind : DocumentKind) (r : Resolver) (root : Path) :
    Except DependencyError (List Path) × Resolver :=
  let s := follow t kind r root
  (s.result, s.resolver)

/-- The makefile rules of a root document whose dependencies are known. -/
def rulesOf (kind : DocumentKind) (root : Path) (deps : List Path) : List Text :=
  let base := root.withoutExtension
  let deps := Text.join " " deps
  match kind with
  | .tex => [base ++ ".pdf: " ++ base ++ ".tex " ++ deps]
  | .lyx => [base ++ ".tex: " ++ base ++ ".lyx " ++ deps, base ++ ".lyx.d: " ++ base ++ ".lyx " ++ deps]

/-- The makefile rules of a root document. -/
def rules (t : FileTree) (kind : DocumentKind) (r : Resolver) (root : Path) :
    Except DependencyError (List Text) × Resolver :=
  let (result, r) := r.recursive t kind root
  (result.map (rulesOf kind root), r)

end Resolver

end TexSymbols

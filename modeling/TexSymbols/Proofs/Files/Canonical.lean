import Mathlib.Data.List.Sort
import TexSymbols.Proofs.Files.Order
import TexSymbols.Proofs.Results

/-!
# Input files of any file system

To find the input files a file system is asked a few questions.  The order in which its answers
come, and that of the arguments, make no difference but in the spelling of paths.

* `Path.Precedes`, `precedes_iff` — paths are in order of their components, names in that of their
  bytes.
* `Path.map_components_inOrder` — paths in order are given, but for their spelling, by which paths
  they are.
* `FileSystem`, `FileSystem.inputs` — what is asked, and the files found by the answers;
  `FileTree.inputs_system` — for a tree they are its input files.
* `FileSystem.Names` — the files that an argument names; `FileSystem.inputs_eq` — the first argument
  that is refused, or else the files that arguments name.
* `FileSystem.CanonicalInputs`, `FileSystem.canonicalInputs` — which files are found, in which
  order, and that neither the arguments' order nor the one of the answers matters.
-/

namespace TexSymbols

/-! ## The order of paths -/

namespace Component

/-- The order of components: the root, the current directory, the one above, and then names in the
order of their bytes. -/
inductive Precedes : Component → Component → Prop
  | rank {a b : Component} (h : a.rank < b.rank) : Precedes a b
  | name {m n : Text} (h : Utf8.encode m < Utf8.encode n) : Precedes (.name m) (.name n)

theorem precedes_iff {a b : Component} : a.Precedes b ↔ a.key < b.key := by
  constructor
  · rintro (hrank | hname)
    · cases a <;> cases b <;> simp_all [key, rank, Prod.Lex.toLex_lt_toLex]
    · exact Prod.Lex.toLex_lt_toLex.2 (.inr ⟨rfl, Utf8.encode_lt_encode_iff.1 hname⟩)
  · intro h
    by_cases hrank : a.rank < b.rank
    · exact .rank hrank
    · cases a <;> cases b <;> simp_all [key, rank, Prod.Lex.toLex_lt_toLex]
      exact .name (Utf8.encode_lt_encode h)

theorem lex_precedes_iff {as bs : List Component} :
    List.Lex Precedes as bs ↔ as.map key < bs.map key := by
  induction as generalizing bs with
  | nil =>
    cases bs with
    | nil => exact iff_of_false List.not_lex_nil (List.lt_irrefl _)
    | cons b bs => exact iff_of_true .nil (List.nil_lt_cons _ _)
  | cons a as ih =>
    cases bs with
    | nil => exact iff_of_false List.not_lex_nil (by simp)
    | cons b bs =>
      rw [List.cons_lex_cons_iff, List.map_cons, List.map_cons, List.cons_lt_cons_iff,
        precedes_iff, ih, key_injective.eq_iff]

end Component

namespace Path

variable {p q : Path} {ps qs : List Path}

/-- The order of paths: at the first component that differs, and a beginning before the whole. -/
def Precedes (p q : Path) : Prop := List.Lex Component.Precedes p.components q.components

theorem precedes_iff : p.Precedes q ↔ p.key < q.key := Component.lex_precedes_iff

theorem inOrder_increasing (ps : List Path) : (inOrder ps).Pairwise Precedes :=
  (inOrder_pairwise ps).imp fun h => precedes_iff.2 ((before_iff _ _).1 h)

theorem keys_inOrder_increasing (ps : List Path) : ((inOrder ps).map key).Pairwise (· < ·) :=
  List.pairwise_map.2 ((inOrder_pairwise ps).imp (before_iff _ _).1)

theorem mem_keys_inOrder {k : List (ℕ ×ₗ Text)} : k ∈ (inOrder ps).map key ↔ k ∈ ps.map key := by
  simp only [List.mem_map]
  constructor
  · rintro ⟨p, hp, rfl⟩
    exact ⟨p, mem_of_mem_inOrder hp, rfl⟩
  · rintro ⟨p, hp, rfl⟩
    obtain ⟨q, hq, hsame⟩ := exists_same_of_mem hp
    exact ⟨q, hq, (same_iff q p).1 hsame⟩

/-- **Paths in order depend only on which paths there are**, but for their spelling. -/
theorem map_components_inOrder (h : ∀ p, p ∈ ps ↔ p ∈ qs) :
    (inOrder ps).map components = (inOrder qs).map components := by
  have hkeys : (inOrder ps).map key = (inOrder qs).map key := by
    refine (keys_inOrder_increasing ps).eq_of_mem_iff (keys_inOrder_increasing qs) fun k => ?_
    rw [mem_keys_inOrder, mem_keys_inOrder, List.mem_map, List.mem_map]
    simp only [h]
  -- a key says what the components are
  refine Component.key_injective.list_map.list_map ?_
  rw [List.map_map, List.map_map]
  exact hkeys

/-- No two of them have the same components. -/
theorem nodup_components_inOrder (ps : List Path) : ((inOrder ps).map components).Nodup := by
  refine List.pairwise_map.2 ((inOrder_pairwise ps).imp fun {p q} h heq => ?_)
  have hkey : p.key = q.key := congrArg (List.map Component.key) heq
  exact absurd ((before_iff p q).1 h) (by rw [hkey]; exact List.lt_irrefl _)

end Path

/-! ## File systems -/

/-- What is asked of a file system. -/
structure FileSystem where
  isFile : Path → Bool
  isDirectory : Path → Bool
  /-- The names in a directory as they are read, if it can be read. -/
  entries? : Path → Option (List Text)
  /-- The paths that a pattern stands for, if it is a pattern. -/
  matches? : Text → Option (List Path)

namespace FileSystem

/-- A definition file. -/
def isSource (fs : FileSystem) (p : Path) : Bool :=
  fs.isFile p && p.extension? = some FileTree.sourceExtension

/-- The files that one argument names. -/
def found (fs : FileSystem) (arg : Text) : Except Refusal (List Path) :=
  if fs.isFile arg then .ok [arg]
  else if fs.isDirectory arg then
    match fs.entries? arg with
    | none => .error (.unreadable arg)
    | some names => .ok ((names.map (Path.join arg)).filter fs.isSource)
  else
    match fs.matches? arg with
    | none => .error (.malformed arg)
    | some paths => .ok (paths.filter fs.isFile)

/-- The files that arguments name, in order and each once. -/
def inputs (fs : FileSystem) (args : List Text) : Except Refusal (List Path) :=
  (args.mapM fs.found).map fun found => Path.inOrder found.flatten

variable {fs fs' : FileSystem} {args args' : List Text} {arg : Text} {p : Path}

/-! ## The files that are named -/

/-- An argument names a file: itself, one directly in it, or one that matches. -/
inductive Names (fs : FileSystem) (arg : Text) : Path → Prop
  | itself (hfile : fs.isFile arg = true) : Names fs arg arg
  /-- A directory names the files with the extension `tex` directly in it. -/
  | inDirectory {names : List Text} {n : Text} (harg : fs.isFile arg = false)
    (hdirectory : fs.isDirectory arg = true) (hread : fs.entries? arg = some names)
    (hn : n ∈ names) (hfile : fs.isFile (Path.join arg n) = true)
    (hextension : Path.extension? (Path.join arg n) = some FileTree.sourceExtension) :
    Names fs arg (Path.join arg n)
  /-- Anything else is a pattern, and names the files among what it stands for. -/
  | matching {paths : List Path} {p : Path} (harg : fs.isFile arg = false)
    (hdirectory : fs.isDirectory arg = false) (hmatches : fs.matches? arg = some paths)
    (hp : p ∈ paths) (hfile : fs.isFile p = true) : Names fs arg p

/-- An argument is a file, a directory that can be read, or otherwise a pattern. -/
def Accepts (fs : FileSystem) (arg : Text) : Prop :=
  fs.isFile arg = true ∨ (fs.isDirectory arg = true ∧ (fs.entries? arg).isSome = true) ∨
    (fs.isDirectory arg = false ∧ (fs.matches? arg).isSome = true)

/-- Why an argument is refused. -/
def refusal? (fs : FileSystem) (arg : Text) : Option Refusal :=
  if fs.isFile arg then none
  else if fs.isDirectory arg then
    if (fs.entries? arg).isSome then none else some (.unreadable arg)
  else if (fs.matches? arg).isSome then none else some (.malformed arg)

/-- The files that an argument names; none if it is refused. -/
def named (fs : FileSystem) (arg : Text) : List Path :=
  if fs.isFile arg then [arg]
  else if fs.isDirectory arg then
    (((fs.entries? arg).getD []).map (Path.join arg)).filter fs.isSource
  else ((fs.matches? arg).getD []).filter fs.isFile

theorem refusal?_eq_none_iff : fs.refusal? arg = none ↔ fs.Accepts arg := by
  unfold refusal? Accepts
  split
  · rename_i hfile
    exact iff_of_true rfl (.inl hfile)
  · rename_i hfile
    split <;> rename_i hdirectory <;> simp [hfile, hdirectory, Option.isSome_iff_ne_none]

theorem found_eq (fs : FileSystem) (arg : Text) :
    fs.found arg = failsOr (fs.refusal? arg) (fs.named arg) := by
  unfold found refusal? named
  split
  · rfl
  · split
    · cases fs.entries? arg <;> rfl
    · cases fs.matches? arg <;> rfl

/-- **The first argument that is refused, or else the files that arguments name.** -/
theorem inputs_eq (fs : FileSystem) (args : List Text) :
    fs.inputs args =
      failsOr (args.findSome? fs.refusal?) (Path.inOrder (args.flatMap fs.named)) := by
  have hfound : args.mapM fs.found = failsOr _ _ := mapM_eq_failsOr fun arg _ => found_eq fs arg
  rw [inputs, hfound, map_failsOr, List.flatMap_def]

theorem inputs_eq_ok_iff {paths : List Path} : fs.inputs args = .ok paths ↔
    (∀ arg ∈ args, fs.Accepts arg) ∧ Path.inOrder (args.flatMap fs.named) = paths := by
  simp only [inputs_eq, failsOr_eq_ok_iff, List.findSome?_eq_none_iff, refusal?_eq_none_iff]

theorem mem_getD_nil_iff {α : Type} {o : Option (List α)} {x : α} :
    x ∈ o.getD [] ↔ ∃ xs, o = some xs ∧ x ∈ xs := by
  cases o <;> simp

theorem mem_named_iff : p ∈ fs.named arg ↔ fs.Names arg p := by
  constructor
  · intro hp
    unfold named at hp
    split at hp
    · rename_i hfile
      rw [List.mem_singleton.1 hp]
      exact .itself hfile
    · rename_i hfile
      rw [Bool.not_eq_true] at hfile
      split at hp
      · rename_i hdirectory
        obtain ⟨hp, hsource⟩ := List.mem_filter.1 hp
        obtain ⟨n, hn, rfl⟩ := List.mem_map.1 hp
        rw [isSource, Bool.and_eq_true, decide_eq_true_iff] at hsource
        obtain ⟨names, hread, hn⟩ := mem_getD_nil_iff.1 hn
        exact .inDirectory hfile hdirectory hread hn hsource.1 hsource.2
      · rename_i hdirectory
        rw [Bool.not_eq_true] at hdirectory
        obtain ⟨hp, hmatch⟩ := List.mem_filter.1 hp
        obtain ⟨paths, hmatches, hp⟩ := mem_getD_nil_iff.1 hp
        exact .matching hfile hdirectory hmatches hp hmatch
  · intro hp
    cases hp with
    | itself hfile => simp [named, hfile]
    | @inDirectory names n harg hdirectory hread hn hfile hextension =>
      have hsource : fs.isSource (Path.join arg n) = true := by
        rw [isSource, hfile, hextension]
        rfl
      simpa [named, harg, hdirectory, hread, hsource] using ⟨n, hn, rfl⟩
    | matching harg hdirectory hmatches hp hfile =>
      simp [named, harg, hdirectory, hmatches, hp, hfile]

/-! ## What does not matter -/

/-- Lists with the same elements, in whatever order and number. -/
def SameMembers {α : Type} (xs ys : List α) : Prop := ∀ x, x ∈ xs ↔ x ∈ ys

/-- The same files and directories; names and matches may come in another order. -/
structure Alike (fs fs' : FileSystem) : Prop where
  isFile_eq : ∀ p, fs.isFile p = fs'.isFile p
  isDirectory_eq : ∀ p, fs.isDirectory p = fs'.isDirectory p
  entries : ∀ p, Option.Rel SameMembers (fs.entries? p) (fs'.entries? p)
  patterns : ∀ arg, Option.Rel SameMembers (fs.matches? arg) (fs'.matches? arg)

theorem isSome_eq_of_rel {α : Type} {o o' : Option (List α)} (h : Option.Rel SameMembers o o') :
    o.isSome = o'.isSome := by
  cases h <;> rfl

theorem sameMembers_of_rel {α : Type} {o o' : Option (List α)} (h : Option.Rel SameMembers o o') :
    SameMembers (o.getD []) (o'.getD []) := by
  cases h with
  | some h => exact h
  | none => exact fun _ => Iff.rfl

namespace Alike

theorem accepts_iff (h : fs.Alike fs') : fs.Accepts arg ↔ fs'.Accepts arg := by
  rw [Accepts, Accepts, h.isFile_eq, h.isDirectory_eq, isSome_eq_of_rel (h.entries arg),
    isSome_eq_of_rel (h.patterns arg)]

theorem isSource_eq (h : fs.Alike fs') : fs.isSource = fs'.isSource := by
  funext p
  rw [isSource, isSource, h.isFile_eq]

theorem named_sameMembers (h : fs.Alike fs') (arg : Text) :
    SameMembers (fs.named arg) (fs'.named arg) := by
  intro p
  rw [named, named, h.isFile_eq, h.isDirectory_eq, h.isSource_eq]
  split
  · rfl
  · split
    · have hnames := sameMembers_of_rel (h.entries arg)
      simp only [List.mem_filter, List.mem_map, hnames _]
    · have hpaths := sameMembers_of_rel (h.patterns arg)
      rw [List.mem_filter, List.mem_filter, hpaths p, h.isFile_eq]

/-- **Neither the order nor the number of arguments and answers matters.** -/
theorem exists_inputs (h : fs.Alike fs') (hargs : SameMembers args args') {paths : List Path}
    (hok : fs.inputs args = .ok paths) :
    ∃ paths', fs'.inputs args' = .ok paths' ∧
      paths'.map Path.components = paths.map Path.components := by
  obtain ⟨haccepts, rfl⟩ := inputs_eq_ok_iff.1 hok
  refine ⟨_, inputs_eq_ok_iff.2 ⟨fun arg harg => ?_, rfl⟩, ?_⟩
  · exact h.accepts_iff.1 (haccepts arg ((hargs arg).2 harg))
  · refine Path.map_components_inOrder fun p => ?_
    simp only [List.mem_flatMap, ← hargs _, (h.named_sameMembers _ p)]

end Alike

end FileSystem

/-! ## Trees -/

namespace FileTree

/-- How a tree answers. -/
def system (t : FileTree) : FileSystem where
  isFile := t.isFile
  isDirectory := t.isDirectory
  entries? := t.children?
  matches? arg := (Pattern.parse? arg).map fun pattern => pattern.find t

variable {t : FileTree} {arg : Text}

theorem refusal?_system : t.system.refusal? arg = (t.named arg).refusal? := by
  show (if t.isFile arg then none
    else if t.isDirectory arg then
      if (t.children? arg).isSome then none else some (Refusal.unreadable arg)
    else if ((Pattern.parse? arg).map fun pattern => pattern.find t).isSome then none
      else some (Refusal.malformed arg)) = _
  rw [FileTree.named]
  split
  · rfl
  · split
    · cases t.children? arg <;> rfl
    · cases Pattern.parse? arg with
      | none => rfl
      | some pattern =>
        show none = _
        dsimp only
        cases (pattern.find t).filter t.isFile <;> rfl

theorem named_system : t.system.named arg = (t.named arg).paths := by
  show (if t.isFile arg then [arg]
    else if t.isDirectory arg then t.sourcesIn arg ((t.children? arg).getD [])
    else (((Pattern.parse? arg).map fun pattern => pattern.find t).getD []).filter t.isFile) = _
  rw [FileTree.named]
  split
  · rfl
  · split
    · cases t.children? arg <;> rfl
    · cases Pattern.parse? arg with
      | none => rfl
      | some pattern =>
        show (pattern.find t).filter t.isFile = _
        dsimp only
        cases (pattern.find t).filter t.isFile <;> rfl

/-- **The input files of a tree are those that its answers lead to.** -/
theorem inputs_system (t : FileTree) (args : List Text) : t.system.inputs args = t.inputs args := by
  have hrefusal : t.system.refusal? = fun arg => (t.named arg).refusal? :=
    funext fun _ => refusal?_system
  have hnamed : t.system.named = fun arg => (t.named arg).paths := funext fun _ => named_system
  rw [FileSystem.inputs_eq, hrefusal, hnamed, inputs]
  cases args.findSome? fun arg => (t.named arg).refusal? <;> rfl

end FileTree

namespace FileSystem

/-- Which input files a file system has for arguments, and in which order. -/
structure CanonicalInputs (fs : FileSystem) (args : List Text) : Prop where
  /-- There is a list of them unless an argument is refused. -/
  succeeds_iff : (∃ paths, fs.inputs args = .ok paths) ↔ ∀ arg ∈ args, fs.Accepts arg
  /-- It is strictly increasing, so that no two of its paths have the same components. -/
  increasing : ∀ paths, fs.inputs args = .ok paths → paths.Pairwise Path.Precedes
  components_nodup : ∀ paths, fs.inputs args = .ok paths → (paths.map Path.components).Nodup
  /-- Each path is one that an argument names. -/
  named : ∀ paths, fs.inputs args = .ok paths → ∀ p ∈ paths, ∃ arg ∈ args, fs.Names arg p
  /-- Each file that an argument names is there, in some spelling. -/
  complete : ∀ paths, fs.inputs args = .ok paths → ∀ arg ∈ args, ∀ p, fs.Names arg p →
    ∃ q ∈ paths, q.components = p.components
  /-- Arguments in another order or more often, and directories that are read in another order, give
  the same list but for the spelling of its paths. -/
  determined : ∀ paths, fs.inputs args = .ok paths → ∀ (fs' : FileSystem) (args' : List Text),
    fs.Alike fs' → SameMembers args args' → ∃ paths', fs'.inputs args' = .ok paths' ∧
      paths'.map Path.components = paths.map Path.components
  /-- For a tree it is the list of its input files. -/
  ofTree : ∀ t : FileTree, fs = t.system → fs.inputs args = t.inputs args

/-- **Input files are in order, each once, and do not depend on how they were found.** -/
theorem canonicalInputs (fs : FileSystem) (args : List Text) : fs.CanonicalInputs args where
  succeeds_iff := by simp [inputs_eq_ok_iff]
  increasing paths hok := by
    obtain ⟨-, rfl⟩ := inputs_eq_ok_iff.1 hok
    exact Path.inOrder_increasing _
  components_nodup paths hok := by
    obtain ⟨-, rfl⟩ := inputs_eq_ok_iff.1 hok
    exact Path.nodup_components_inOrder _
  named paths hok p hp := by
    obtain ⟨-, rfl⟩ := inputs_eq_ok_iff.1 hok
    obtain ⟨arg, harg, hnamed⟩ := List.mem_flatMap.1 (Path.mem_of_mem_inOrder hp)
    exact ⟨arg, harg, mem_named_iff.1 hnamed⟩
  complete paths hok arg harg p hp := by
    obtain ⟨-, rfl⟩ := inputs_eq_ok_iff.1 hok
    have hmem : p ∈ args.flatMap fs.named := List.mem_flatMap.2 ⟨arg, harg, mem_named_iff.2 hp⟩
    obtain ⟨q, hq, hsame⟩ := Path.exists_same_of_mem hmem
    exact ⟨q, hq, of_decide_eq_true hsame⟩
  determined _ hok _ _ halike hargs := halike.exists_inputs hargs hok
  ofTree t h := by
    subst h
    exact t.inputs_system args

end FileSystem

end TexSymbols

import Mathlib.Data.List.Chain
import Mathlib.Logic.Relation
import TexSymbols.Dependencies.Resolver
import TexSymbols.Proofs.Results
import TexSymbols.Proofs.Text.Distinct

/-!
# Searches without memory

* `FileTree.Includes`, `FileTree.Reaches` — a document names a file that exists; such steps in a row.
* `FileTree.search` — the dependencies of a document, found without knowing any before.
* `search_eq_ok_iff`, `search_eq_error` — what a search does first, and what it leaves to others.
* `search_of_reaches` — a search that succeeds searches everything it reaches, with success;
  `acyclic_of_search_eq_ok` — so nothing there leads back to itself.
* `search_of_notMem` — success does not depend on the stack, unless the search reaches a place on it.
* `exists_search_eq_ok` — what can be read and is without cycles is searched with success.
* `mem_iff_of_search_eq_ok` — the dependencies found; `exists_chain_of_search_eq_error` — how an
  error was reached.
-/

namespace TexSymbols.FileTree

variable {t : FileTree} {kind : DocumentKind} {stack stack' : List Place} {place : Place}
  {path path' named : Path} {deps direct : List Path} {e : DependencyError}

/-- **What holds of a stack if it holds whenever one more file is on it**, holds of every stack. -/
theorem stack_induction (t : FileTree) {motive : List Place → Prop}
    (step : ∀ stack, (∀ place ∈ t.filesOff stack, motive (place :: stack)) → motive stack)
    (stack : List Place) : motive stack := by
  induction hlength : (t.filesOff stack).length using Nat.strongRecOn generalizing stack with
  | ind n ih =>
    refine step stack fun place hplace => ih _ ?_ _ rfl
    rw [← hlength]
    exact length_filesOff_lt hplace

/-! ## What a document names -/

/-- The document names the file. -/
def Names (t : FileTree) (kind : DocumentKind) (path named : Path) : Prop :=
  ∃ direct, t.namedBy kind path = .ok direct ∧ named ∈ direct

/-- The document names the file, which exists. -/
def Includes (t : FileTree) (kind : DocumentKind) (path named : Path) : Prop :=
  t.Names kind path named ∧ t.exists named = true

/-- The document is the file or leads to it, from one file that exists to another. -/
def Reaches (t : FileTree) (kind : DocumentKind) : Path → Path → Prop :=
  Relation.ReflTransGen (t.Includes kind)

/-- The document leads to the file by one step at least. -/
def Leads (t : FileTree) (kind : DocumentKind) : Path → Path → Prop :=
  Relation.TransGen (t.Includes kind)

theorem includes_iff (hd : t.namedBy kind path = .ok direct) :
    t.Includes kind path named ↔ named ∈ direct.filter t.exists := by
  rw [List.mem_filter]
  constructor
  · rintro ⟨⟨direct', hd', hnamed⟩, hexists⟩
    cases hd.symm.trans hd'
    exact ⟨hnamed, hexists⟩
  · rintro ⟨hnamed, hexists⟩
    exact ⟨⟨direct, hd, hnamed⟩, hexists⟩

theorem namedBy_eq_ok_iff :
    t.namedBy kind path = .ok direct ↔ ∃ content, t.read? path = some content ∧
      direct = kind.namesIn path content := by
  unfold namedBy
  cases t.read? path with
  | none => simp
  | some content => simp [eq_comm]

theorem namedBy_eq_error (h : t.namedBy kind path = .error e) :
    t.read? path = none ∧ e = .unreadable path (t.fault path) := by
  unfold namedBy at h
  cases hread : t.read? path with
  | none =>
    rw [hread] at h
    cases h
    exact ⟨rfl, rfl⟩
  | some content =>
    rw [hread] at h
    cases h

/-! ## Searches -/

/-- The dependencies of a document, found without knowing any before. -/
def search (t : FileTree) (kind : DocumentKind) (stack : List Place) (path : Path) :
    Except DependencyError (List Path) :=
  match _hp : t.place? path with
  | none => .error (.unreadable path (t.fault path))
  | some place =>
    if _hs : place ∈ stack then
      .error (.cycle (t.canonical place) (stack.reverse.map t.canonical))
    else
      match _hd : t.namedBy kind path with
      | .error e => .error e
      | .ok direct =>
        ((direct.filter t.exists).mapM fun named => search t kind (place :: stack) named).map
          fun further => Text.distinct (direct ++ further.flatten)
termination_by (t.filesOff stack).length
decreasing_by exact length_filesOff_lt (mem_filesOff _hp _hs _hd)

theorem search_of_missing (hp : t.place? path = none) :
    t.search kind stack path = .error (.unreadable path (t.fault path)) := by
  rw [search]
  split
  · rfl
  · rename_i place hplace
    rw [hp] at hplace
    cases hplace

theorem search_of_mem (hp : t.place? path = some place) (hs : place ∈ stack) :
    t.search kind stack path =
      .error (.cycle (t.canonical place) (stack.reverse.map t.canonical)) := by
  rw [search]
  split
  · rename_i hplace
    rw [hp] at hplace
    cases hplace
  · rename_i place' hplace
    cases hp.symm.trans hplace
    rw [dif_pos hs]

/-- The search of a document that is not on the stack. -/
theorem search_of_notMem_stack (hp : t.place? path = some place) (hs : place ∉ stack) :
    t.search kind stack path = (t.namedBy kind path).bind fun direct =>
      ((direct.filter t.exists).mapM (t.search kind (place :: stack))).map
        fun further => Text.distinct (direct ++ further.flatten) := by
  rw [search]
  split
  · rename_i hplace
    rw [hp] at hplace
    cases hplace
  · rename_i place' hplace
    cases hp.symm.trans hplace
    rw [dif_neg hs]
    split
    · rename_i e he
      rw [he]
      rfl
    · rename_i direct hd
      rw [hd]
      rfl

/-- **A search succeeds** if the document is not on the stack and can be read, and the searches of
the files that it names succeed; these files and what was found for them are its dependencies. -/
theorem search_eq_ok_iff :
    t.search kind stack path = .ok deps ↔ ∃ place direct, ∃ found : Path → List Path,
      t.place? path = some place ∧ place ∉ stack ∧ t.namedBy kind path = .ok direct ∧
      (∀ named, t.Includes kind path named →
        t.search kind (place :: stack) named = .ok (found named)) ∧
      deps = Text.distinct (direct ++ (direct.filter t.exists).flatMap found) := by
  constructor
  · intro h
    cases hp : t.place? path with
    | none =>
      rw [search_of_missing hp] at h
      cases h
    | some place =>
      by_cases hs : place ∈ stack
      · rw [search_of_mem hp hs] at h
        cases h
      · rw [search_of_notMem_stack hp hs] at h
        cases hd : t.namedBy kind path with
        | error e =>
          rw [hd] at h
          cases h
        | ok direct =>
          rw [hd, Except.bind] at h
          cases hfurther : (direct.filter t.exists).mapM (t.search kind (place :: stack)) with
          | error e =>
            rw [hfurther] at h
            cases h
          | ok further =>
            rw [hfurther] at h
            cases h
            obtain ⟨found, hfound, rfl⟩ := exists_of_mapM_eq_ok hfurther
            exact ⟨place, direct, found, rfl, hs, rfl,
              fun named hnamed => hfound named ((includes_iff hd).1 hnamed), rfl⟩
  · rintro ⟨place, direct, found, hp, hs, hd, hfound, rfl⟩
    have hfurther : (direct.filter t.exists).mapM (t.search kind (place :: stack)) =
        .ok ((direct.filter t.exists).map found) :=
      mapM_eq_pure fun named hnamed => hfound named ((includes_iff hd).2 hnamed)
    rw [search_of_notMem_stack hp hs, hd, Except.bind, hfurther]
    rfl

/-- What the search of a document can fail with at once. -/
inductive Fails (t : FileTree) (stack : List Place) (path : Path) : DependencyError → Prop
  | unreadable (h : t.read? path = none) :
      Fails t stack path (.unreadable path (t.fault path))
  | cycle {place : Place} (hp : t.place? path = some place) (hs : place ∈ stack) :
      Fails t stack path (.cycle (t.canonical place) (stack.reverse.map t.canonical))

/-- **A search fails** at once, or because the search of a file that the document names does. -/
theorem search_eq_error (h : t.search kind stack path = .error e) :
    t.Fails stack path e ∨ ∃ place named, t.place? path = some place ∧ place ∉ stack ∧
      t.Includes kind path named ∧ t.search kind (place :: stack) named = .error e := by
  cases hp : t.place? path with
  | none =>
    rw [search_of_missing hp] at h
    cases h
    exact .inl (.unreadable (by rw [read?, hp, Option.bind_none]))
  | some place =>
    by_cases hs : place ∈ stack
    · rw [search_of_mem hp hs] at h
      cases h
      exact .inl (.cycle hp hs)
    · rw [search_of_notMem_stack hp hs] at h
      cases hd : t.namedBy kind path with
      | error e' =>
        rw [hd] at h
        cases h
        obtain ⟨hread, rfl⟩ := namedBy_eq_error hd
        exact .inl (.unreadable hread)
      | ok direct =>
        rw [hd, Except.bind] at h
        cases hfurther : (direct.filter t.exists).mapM (t.search kind (place :: stack)) with
        | ok further =>
          rw [hfurther] at h
          cases h
        | error e' =>
          rw [hfurther] at h
          cases h
          obtain ⟨named, hnamed, he⟩ := exists_mem_of_mapM_eq_error hfurther
          exact .inr ⟨place, named, rfl, hs, (includes_iff hd).2 hnamed, he⟩

/-! ## Searches that succeed -/

theorem search_of_includes (h : t.search kind stack path = .ok deps)
    (hp : t.place? path = some place) (hnamed : t.Includes kind path named) :
    ∃ deps', t.search kind (place :: stack) named = .ok deps' := by
  obtain ⟨place', direct, found, hp', -, -, hfound, -⟩ := search_eq_ok_iff.1 h
  cases hp.symm.trans hp'
  exact ⟨found named, hfound named hnamed⟩

theorem exists_place_of_search_eq_ok (h : t.search kind stack path = .ok deps) :
    ∃ place, t.place? path = some place ∧ place ∉ stack := by
  obtain ⟨place, -, -, hp, hs, -⟩ := search_eq_ok_iff.1 h
  exact ⟨place, hp, hs⟩

/-- **What is reached is searched with success**, over a longer stack. -/
theorem search_of_reaches (h : t.search kind stack path = .ok deps)
    (hreaches : t.Reaches kind path path') :
    ∃ stack' deps', stack ⊆ stack' ∧ t.search kind stack' path' = .ok deps' := by
  induction hreaches with
  | refl => exact ⟨stack, deps, List.Subset.refl _, h⟩
  | tail _ hnamed ih =>
    obtain ⟨stack', deps', hsub, hsearch⟩ := ih
    obtain ⟨place, hp, -⟩ := exists_place_of_search_eq_ok hsearch
    obtain ⟨deps'', hsearch'⟩ := search_of_includes hsearch hp hnamed
    exact ⟨place :: stack', deps'', List.subset_cons_of_subset _ hsub, hsearch'⟩

theorem notMem_of_search_eq_ok (h : t.search kind stack path = .ok deps)
    (hreaches : t.Reaches kind path path') (hp : t.place? path' = some place) : place ∉ stack := by
  obtain ⟨stack', deps', hsub, hsearch⟩ := search_of_reaches h hreaches
  obtain ⟨place', hp', hs⟩ := exists_place_of_search_eq_ok hsearch
  cases hp.symm.trans hp'
  exact fun hmem => hs (hsub hmem)

theorem isSome_read?_of_search_eq_ok (h : t.search kind stack path = .ok deps)
    (hreaches : t.Reaches kind path path') : (t.read? path').isSome := by
  obtain ⟨stack', deps', -, hsearch⟩ := search_of_reaches h hreaches
  obtain ⟨-, direct, -, -, -, hd, -⟩ := search_eq_ok_iff.1 hsearch
  obtain ⟨content, hread, -⟩ := namedBy_eq_ok_iff.1 hd
  rw [hread]
  rfl

/-- **Nothing that a successful search reaches leads back to its own place.** -/
theorem acyclic_of_search_eq_ok (h : t.search kind stack path = .ok deps)
    (hreaches : t.Reaches kind path path') {path'' : Path} (hleads : t.Leads kind path' path'') :
    t.place? path'' ≠ t.place? path' := by
  obtain ⟨stack', deps', -, hsearch⟩ := search_of_reaches h hreaches
  obtain ⟨place, hp, -⟩ := exists_place_of_search_eq_ok hsearch
  obtain ⟨named, hnamed, hreaches'⟩ := Relation.TransGen.head'_iff.1 hleads
  obtain ⟨deps'', hsearch'⟩ := search_of_includes hsearch hp hnamed
  intro heq
  exact notMem_of_search_eq_ok hsearch' hreaches' (heq.trans hp) List.mem_cons_self

/-- **Success does not depend on the stack**, as long as nothing that is reached is on it. -/
theorem search_of_notMem (h : t.search kind stack path = .ok deps)
    (hs : ∀ path' place, t.Reaches kind path path' → t.place? path' = some place →
      place ∉ stack') :
    t.search kind stack' path = .ok deps := by
  induction stack using stack_induction t generalizing stack' path deps with
  | step stack ih =>
    obtain ⟨place, direct, found, hp, hplace, hd, hfound, rfl⟩ := search_eq_ok_iff.1 h
    refine search_eq_ok_iff.2 ⟨place, direct, found, hp, hs path place .refl hp, hd, ?_, rfl⟩
    intro named hnamed
    refine ih place (mem_filesOff hp hplace hd) (hfound named hnamed) ?_
    intro path' place' hreaches hp' hmem
    rcases List.mem_cons.1 hmem with rfl | hmem
    · -- nothing below leads back to the document itself
      exact acyclic_of_search_eq_ok h .refl (.head' hnamed hreaches) (hp'.trans hp.symm)
    · exact hs path' place' (.head hnamed hreaches) hp' hmem

/-- **What can be read and has no cycles is searched with success**, if nothing is on the stack. -/
theorem exists_search_eq_ok
    (hread : ∀ path', t.Reaches kind path path' → (t.read? path').isSome)
    (hacyclic : ∀ path' path'', t.Reaches kind path path' → t.Leads kind path' path'' →
      t.place? path'' ≠ t.place? path')
    (hs : ∀ path' place, t.Reaches kind path path' → t.place? path' = some place →
      place ∉ stack) :
    ∃ deps, t.search kind stack path = .ok deps := by
  induction stack using stack_induction t generalizing path with
  | step stack ih =>
    obtain ⟨content, hcontent⟩ := Option.isSome_iff_exists.1 (hread path .refl)
    obtain ⟨place, hp, -⟩ := Option.bind_eq_some_iff.1 hcontent
    have hd : t.namedBy kind path = .ok (kind.namesIn path content) :=
      namedBy_eq_ok_iff.2 ⟨content, hcontent, rfl⟩
    have hplace := hs path place .refl hp
    have hnamed : ∀ named, t.Includes kind path named →
        ∃ deps, t.search kind (place :: stack) named = .ok deps := by
      intro named hnamed
      refine ih place (mem_filesOff hp hplace hd) (fun path' h => hread path' (.head hnamed h))
        (fun path' path'' h => hacyclic path' path'' (.head hnamed h)) ?_
      intro path' place' hreaches hp' hmem
      rcases List.mem_cons.1 hmem with rfl | hmem
      · exact hacyclic path path' .refl (.head' hnamed hreaches) (hp'.trans hp.symm)
      · exact hs path' place' (.head hnamed hreaches) hp' hmem
    choose! found hfound using hnamed
    exact ⟨_, search_eq_ok_iff.2 ⟨place, _, found, hp, hplace, hd, hfound, rfl⟩⟩

/-! ## What is found -/

/-- **The dependencies are the files that are named by what is reached.** -/
theorem mem_iff_of_search_eq_ok (h : t.search kind stack path = .ok deps) :
    named ∈ deps ↔ ∃ path', t.Reaches kind path path' ∧ t.Names kind path' named := by
  induction stack using stack_induction t generalizing path deps with
  | step stack ih =>
    obtain ⟨place, direct, found, hp, hs, hd, hfound, rfl⟩ := search_eq_ok_iff.1 h
    have hbelow : ∀ file, t.Includes kind path file →
        (named ∈ found file ↔ ∃ path', t.Reaches kind file path' ∧ t.Names kind path' named) :=
      fun file hfile => ih place (mem_filesOff hp hs hd) (hfound file hfile)
    rw [Text.mem_distinct, List.mem_append, List.mem_flatMap]
    constructor
    · rintro (hnamed | ⟨file, hfile, hnamed⟩)
      · exact ⟨path, .refl, direct, hd, hnamed⟩
      · have hincludes := (includes_iff hd).2 hfile
        obtain ⟨path', hreaches, hnames⟩ := (hbelow file hincludes).1 hnamed
        exact ⟨path', .head hincludes hreaches, hnames⟩
    · rintro ⟨path', hreaches, hnames⟩
      rcases Relation.ReflTransGen.cases_head hreaches with rfl | ⟨file, hfile, hreaches⟩
      · obtain ⟨direct', hd', hnamed⟩ := hnames
        cases hd.symm.trans hd'
        exact .inl hnamed
      · exact .inr ⟨file, (includes_iff hd).1 hfile,
          (hbelow file hfile).2 ⟨path', hreaches, hnames⟩⟩

theorem nodup_of_search_eq_ok (h : t.search kind stack path = .ok deps) : deps.Nodup := by
  obtain ⟨-, direct, found, -, -, -, -, rfl⟩ := search_eq_ok_iff.1 h
  exact Text.nodup_distinct _

/-! ## How an error is reached -/

/-- **An error is reached by a chain of documents**: the search of the last one fails at once, when
the places of the others are on the stack. -/
theorem exists_chain_of_search_eq_error (h : t.search kind stack path = .error e) :
    ∃ (chain : List Path) (last : Path) (places : List Place),
      (chain ++ [last]).IsChain (t.Includes kind) ∧ (chain ++ [last]).head? = some path ∧
      t.Reaches kind path last ∧ chain.map t.place? = places.map some ∧
      t.Fails (places.reverse ++ stack) last e := by
  induction stack using stack_induction t generalizing path with
  | step stack ih =>
    rcases search_eq_error h with hfails | ⟨place, named, hp, hs, hnamed, hsearch⟩
    · exact ⟨[], path, [], .singleton _, rfl, .refl, rfl, hfails⟩
    · obtain ⟨direct, hd, -⟩ := hnamed.1
      obtain ⟨chain, last, places, hchain, hfirst, hreaches, hplaces, hfails⟩ :=
        ih place (mem_filesOff hp hs hd) hsearch
      have hnext : ∀ next ∈ (chain ++ [last]).head?, t.Includes kind path next := by
        intro next hnext
        rw [hfirst] at hnext
        cases hnext
        exact hnamed
      refine ⟨path :: chain, last, place :: places, hchain.cons hnext, rfl,
        .head hnamed hreaches, ?_, ?_⟩
      · rw [List.map_cons, hp, hplaces, List.map_cons]
      · rwa [List.reverse_cons, List.append_assoc, List.singleton_append]

end TexSymbols.FileTree

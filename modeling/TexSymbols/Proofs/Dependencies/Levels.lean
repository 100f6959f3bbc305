import Mathlib.Logic.Function.Iterate
import TexSymbols.Proofs.Dependencies.Search

/-!
# What a search does

* `Resolver.Ends` — the ways in which the search of a document ends; `ends_follow` — there are no
  others.
* `follow_induction` — what holds of a search follows from what holds of those inside it;
  `follow_resolver` — so does what a search does to the resolver.
* `each_invariant`, `each_result` — several searches, one after the other, if each keeps an
  invariant; `each_known` — if each makes known what it finds.
* `iterate_unroll` — as many levels as there are files, and one more, are enough.
-/

namespace TexSymbols.Resolver

variable {t : FileTree} {kind : DocumentKind} {stack : List Place} {place : Place}
  {path : Path} {paths deps direct further : List Path} {e : DependencyError} {r : Resolver}

/-! ## One search -/

theorem stack_enter (r : Resolver) (place : Place) : (r.enter place).stack = place :: r.stack := rfl

/-- The searches of the files that a document names, inside that of the document. -/
abbrev inside (t : FileTree) (kind : DocumentKind) (r : Resolver) (place : Place)
    (direct : List Path) : Search (place :: r.stack) :=
  each t (fun inner hinner named => (follow t kind inner named).over hinner) (r.enter place)
    (r.stack_enter place) direct

/-- How the search of a document ends. -/
inductive Ends (t : FileTree) (kind : DocumentKind) (r : Resolver) (path : Path) :
    Search r.stack → Prop
  | missing (hp : t.place? path = none) :
      Ends t kind r path ⟨.error (.unreadable path (t.fault path)), r, rfl⟩
  /-- The document was searched before. -/
  | known {place : Place} {deps : List Path} (hp : t.place? path = some place)
      (hc : r.cache.find? place = some deps) : Ends t kind r path ⟨.ok deps, r, rfl⟩
  | cycle {place : Place} (hp : t.place? path = some place) (hs : place ∈ r.stack) :
      Ends t kind r path
        ⟨.error (.cycle (t.canonical place) (r.stack.reverse.map t.canonical)), r, rfl⟩
  | unreadable {place : Place} {e : DependencyError} (hp : t.place? path = some place)
      (hs : place ∉ r.stack) (hd : t.namedBy kind path = .error e) :
      Ends t kind r path ⟨.error e, (r.enter place).leave, rfl⟩
  /-- The files that the document names are searched. -/
  | named {place : Place} {direct : List Path} (hp : t.place? path = some place)
      (hc : r.cache.find? place = none) (hs : place ∉ r.stack)
      (hd : t.namedBy kind path = .ok direct) :
      Ends t kind r path ((inside t kind r place direct).finish path direct)

theorem ends_follow (t : FileTree) (kind : DocumentKind) (r : Resolver) (path : Path) :
    Ends t kind r path (follow t kind r path) := by
  rw [follow, level]
  split
  · exact .missing ‹_›
  · rename_i place hp
    split
    · exact .known hp ‹_›
    · rename_i hc
      split
      · exact .cycle hp ‹_›
      · rename_i hs
        split
        · exact .unreadable hp hs ‹_›
        · exact .named hp hc hs ‹_›

theorem follow_of_known (hp : t.place? path = some place) (hc : r.cache.find? place = some deps) :
    follow t kind r path = ⟨.ok deps, r, rfl⟩ := by
  rw [follow, level]
  split
  · rename_i hnone
    rw [hp] at hnone
    cases hnone
  · rename_i place' hp'
    cases hp.symm.trans hp'
    rw [hc]

/-- **What holds of a search if it holds of those inside it**, holds of every search. -/
theorem follow_induction (t : FileTree) {motive : Resolver → Path → Prop}
    (step : ∀ r path, (∀ place ∈ t.filesOff r.stack, ∀ inner named,
      inner.stack = place :: r.stack → motive inner named) → motive r path)
    (r : Resolver) (path : Path) : motive r path := by
  suffices hall : ∀ stack r path, r.stack = stack → motive r path from hall _ r path rfl
  intro stack
  induction stack using t.stack_induction with
  | step stack ih =>
    rintro r path rfl
    exact step r path fun place hplace inner named hinner => ih place hplace inner named hinner

theorem finish_result (s : Search (place :: stack)) :
    (s.finish path direct).result =
      s.result.map fun further => Text.distinct (direct ++ further) := by
  unfold Search.finish
  cases s.result <;> rfl

/-- What is so of the resolver when the search of a document ends. -/
theorem finish_resolver {P : Resolver → Prop} (s : Search (place :: stack))
    (hleave : P s.resolver.leave)
    (hstore : ∀ further, s.result = .ok further →
      P (s.resolver.leave.store path place (Text.distinct (direct ++ further)))) :
    P (s.finish path direct).resolver := by
  unfold Search.finish
  split
  · exact hleave
  · exact hstore _ ‹_›

/-- **What is so of a resolver before and after a search**: only the searches of the files that a
document names change it. -/
theorem follow_resolver {Q : Resolver → Path → Resolver → Prop} (same : ∀ r path, Q r path r)
    (named : ∀ r path place direct, t.place? path = some place → r.cache.find? place = none →
      t.namedBy kind path = .ok direct → place ∉ r.stack →
      (∀ file ∈ direct.filter t.exists, ∀ inner : Resolver, inner.stack = place :: r.stack →
        Q inner file (follow t kind inner file).resolver) →
      Q r path ((inside t kind r place direct).finish path direct).resolver)
    (r : Resolver) (path : Path) : Q r path (follow t kind r path).resolver := by
  induction r, path using follow_induction t with
  | step r path ih =>
    have hends := ends_follow t kind r path
    generalize follow t kind r path = s at hends ⊢
    cases hends with
    | missing => exact same r path
    | known => exact same r path
    | cycle => exact same r path
    | unreadable => exact same r path
    | named hp hc hs hd =>
      exact named r path _ _ hp hc hd hs fun file _ inner hinner =>
        ih _ (FileTree.mem_filesOff hp hs hd) inner file hinner

/-! ## Several searches -/

section Each

variable {search : ∀ r : Resolver, r.stack = stack → Path → Search stack}

theorem each_of_missing (h : r.stack = stack) (hpath : ¬ t.exists path = true) :
    each t search r h (path :: paths) =
      each t search (r.report ⟨.warn, "Path not existing (" ++ path ++ ")"⟩) h paths := by
  rw [each, if_neg hpath]

theorem each_of_error (h : r.stack = stack) (hpath : t.exists path = true)
    (he : (search r h path).result = .error e) :
    each t search r h (path :: paths) = search r h path := by
  rw [each, if_pos hpath]
  simp only [he]

theorem each_of_ok (paths : List Path) (h : r.stack = stack) (hpath : t.exists path = true)
    (hdeps : (search r h path).result = .ok deps) :
    (each t search r h (path :: paths)).result =
        (each t search (search r h path).resolver (search r h path).stack_eq paths).result.map
          (deps ++ ·) ∧
      (each t search r h (path :: paths)).resolver =
        (each t search (search r h path).resolver (search r h path).stack_eq paths).resolver := by
  rw [each, if_pos hpath]
  simp only [hdeps, and_self]

/-- **What every search keeps, all of them keep.** -/
theorem each_invariant {P : Resolver → Prop} (hreport : ∀ r line, P r → P (r.report line))
    (hsearch : ∀ path ∈ paths.filter t.exists, ∀ r h, P r → P (search r h path).resolver)
    (h : r.stack = stack) (hr : P r) : P (each t search r h paths).resolver := by
  induction paths generalizing r with
  | nil => exact hr
  | cons path paths ih =>
    by_cases hpath : t.exists path = true
    · rw [List.filter_cons_of_pos hpath] at hsearch
      obtain ⟨hfirst, hothers⟩ := List.forall_mem_cons.1 hsearch
      cases hresult : (search r h path).result with
      | error e =>
        rw [each_of_error h hpath hresult]
        exact hfirst r h hr
      | ok deps =>
        rw [(each_of_ok paths h hpath hresult).2]
        exact ih hothers _ (hfirst r h hr)
    · rw [List.filter_cons_of_neg hpath] at hsearch
      rw [each_of_missing h hpath]
      exact ih hsearch (r := r.report _) h (hreport r _ hr)

/-- **Searches whose results do not depend on one another** give the results of the files that
exist. -/
theorem each_result {f : Path → Except DependencyError (List Path)} {P : Resolver → Prop}
    (hreport : ∀ r line, P r → P (r.report line))
    (hsearch : ∀ path ∈ paths.filter t.exists, ∀ r h, P r →
      (search r h path).result = f path ∧ P (search r h path).resolver)
    (h : r.stack = stack) (hr : P r) :
    (each t search r h paths).result = ((paths.filter t.exists).mapM f).map List.flatten ∧
      P (each t search r h paths).resolver := by
  induction paths generalizing r with
  | nil => exact ⟨rfl, hr⟩
  | cons path paths ih =>
    by_cases hpath : t.exists path = true
    · rw [List.filter_cons_of_pos hpath] at hsearch ⊢
      obtain ⟨hfirst, hothers⟩ := List.forall_mem_cons.1 hsearch
      obtain ⟨hf, hinvariant⟩ := hfirst r h hr
      cases hresult : (search r h path).result with
      | error e =>
        rw [each_of_error h hpath hresult, List.mapM_cons, ← hf, hresult]
        exact ⟨rfl, hinvariant⟩
      | ok deps =>
        obtain ⟨heq, hresolver⟩ := each_of_ok paths h hpath hresult
        obtain ⟨hrest, hend⟩ := ih hothers (search r h path).stack_eq hinvariant
        rw [heq, hresolver, hrest, List.mapM_cons, ← hf, hresult]
        refine ⟨?_, hend⟩
        cases (paths.filter t.exists).mapM f <;> rfl
    · rw [List.filter_cons_of_neg hpath] at hsearch ⊢
      rw [each_of_missing h hpath]
      exact ih hsearch (r := r.report _) h (hreport r _ hr)

/-- **What is found for several files** is what is known of each of them in the end, if a search
makes known what it finds and forgets nothing. -/
theorem each_known (know : Resolver → Path → Option (List Path))
    (hreport : ∀ r line, know (r.report line) = know r)
    (hkeep : ∀ r h path file deps, know r file = some deps →
      know (search r h path).resolver file = some deps)
    (hfind : ∀ r h path deps, (search r h path).result = .ok deps →
      know (search r h path).resolver path = some deps)
    (h : r.stack = stack) (hfurther : (each t search r h paths).result = .ok further) :
    ∃ found : Path → List Path,
      (∀ named ∈ paths.filter t.exists,
        know (each t search r h paths).resolver named = some (found named)) ∧
      further = (paths.filter t.exists).flatMap found := by
  refine ⟨fun named => (know (each t search r h paths).resolver named).getD [], ?_⟩
  induction paths generalizing r further with
  | nil =>
    cases hfurther
    exact ⟨fun _ h => absurd h List.not_mem_nil, rfl⟩
  | cons path paths ih =>
    by_cases hpath : t.exists path = true
    · rw [List.filter_cons_of_pos hpath, List.flatMap_cons]
      cases hresult : (search r h path).result with
      | error e =>
        rw [each_of_error h hpath hresult, hresult] at hfurther
        cases hfurther
      | ok deps =>
        obtain ⟨heq, hresolver⟩ := each_of_ok paths h hpath hresult
        rw [heq] at hfurther
        cases hrest : (each t search (search r h path).resolver (search r h path).stack_eq
            paths).result with
        | error e =>
          rw [hrest] at hfurther
          cases hfurther
        | ok others =>
          rw [hrest] at hfurther
          cases hfurther
          obtain ⟨hknown, hothers⟩ := ih (search r h path).stack_eq hrest
          have hfirst : know (each t search r h (path :: paths)).resolver path = some deps := by
            rw [hresolver]
            exact each_invariant (P := fun r => know r path = some deps)
              (fun r line h => (congrFun (hreport r line) path).trans h)
              (fun file _ r h => hkeep r h file path deps) _ (hfind r h path deps hresult)
          rw [← hresolver] at hknown hothers
          refine ⟨List.forall_mem_cons.2 ⟨by simp only [hfirst, Option.getD_some], hknown⟩, ?_⟩
          rw [hfirst, Option.getD_some, ← hothers]
    · rw [List.filter_cons_of_neg hpath]
      rw [each_of_missing h hpath] at hfurther ⊢
      exact ih (r := r.report _) h hfurther

end Each

/-! ## Levels -/

/-- One more level around searches that are done by `search`. -/
def unroll (t : FileTree) (kind : DocumentKind)
    (search : ∀ (r : Resolver) (_ : Path), Search r.stack) (r : Resolver) (path : Path) :
    Search r.stack :=
  level t kind r path fun _ _ inner hinner named => (search inner named).over hinner

/-- **No more levels are needed than there are files off the stack, and one**, whatever `bottom`
would do below them. -/
theorem iterate_unroll (bottom : ∀ (r : Resolver) (_ : Path), Search r.stack) {depth : Nat}
    (h : (t.filesOff r.stack).length < depth) :
    (unroll t kind)^[depth] bottom r path = follow t kind r path := by
  induction depth generalizing r path with
  | zero => exact absurd h (Nat.not_lt_zero _)
  | succ depth ih =>
    rw [Function.iterate_succ_apply', unroll, follow]
    congr 1
    funext place hplace inner hinner named
    have hless := FileTree.length_filesOff_lt hplace
    rw [ih (by rw [hinner]; omega)]

end TexSymbols.Resolver

import TexSymbols.Proofs.Dependencies.Memory

/-!
# Calls, one after the other

* `Resolver.Call` — asking a resolver for the dependencies or the rules of a root document;
  `Resolver.after` — the resolver after several calls, successful or not.
* `Resolver.Unseen` — earlier calls do not show in the answers about TeX documents; `unseen_after`.
* `Resolver.FirstSpelling` — what LyX documents name is kept in the spelling in which they were
  first searched; `firstSpelling_after`.  `answer_respelled` — this may show.
-/

namespace TexSymbols.Resolver

variable {t : FileTree} {kind : DocumentKind} {known : Path → Prop} {path path' : Path}
  {direct deps : List Path} {r : Resolver} {call : Call} {calls : List Call}

/-! ## Calls -/

/-- What a resolver is asked for. -/
inductive Call
  | recursive (root : Path)
  | rules (root : Path)

namespace Call

def root : Call → Path
  | recursive root => root
  | rules root => root

/-- The answer of a resolver, and what it knows then. -/
def answer (t : FileTree) (kind : DocumentKind) (r : Resolver) :
    Call → Except DependencyError (List Text) × Resolver
  | recursive root => r.recursive t kind root
  | rules root => r.rules t kind root

/-- The answer, if the dependencies of the root are known. -/
def texts (kind : DocumentKind) (deps : List Path) : Call → List Text
  | recursive _ => deps
  | rules root => rulesOf kind root deps

end Call

theorem answer_fst (t : FileTree) (kind : DocumentKind) (r : Resolver) (call : Call) :
    (call.answer t kind r).1 =
      (follow t kind r call.root).result.map fun deps => call.texts kind deps := by
  cases call with
  | recursive root =>
    change (follow t kind r root).result = (follow t kind r root).result.map id
    cases (follow t kind r root).result <;> rfl
  | rules root => rfl

theorem answer_snd (t : FileTree) (kind : DocumentKind) (r : Resolver) (call : Call) :
    (call.answer t kind r).2 = (follow t kind r call.root).resolver := by
  cases call <;> rfl

/-- The resolver after several calls. -/
def after (r : Resolver) (t : FileTree) (kind : DocumentKind) (calls : List Call) : Resolver :=
  calls.foldl (fun r call => (call.answer t kind r).2) r

/-- **What every search keeps, several calls keep.** -/
theorem after_invariant {P : Resolver → Prop}
    (hstep : ∀ call ∈ calls, ∀ r, P r → P (follow t kind r call.root).resolver) (hr : P r) :
    P (r.after t kind calls) := by
  induction calls generalizing r with
  | nil => exact hr
  | cons call calls ih =>
    obtain ⟨hfirst, hothers⟩ := List.forall_mem_cons.1 hstep
    have hnext : P (call.answer t kind r).2 := by
      rw [answer_snd]
      exact hfirst r hr
    exact ih hothers hnext

theorem stack_after (t : FileTree) (kind : DocumentKind) (r : Resolver) (calls : List Call) :
    (r.after t kind calls).stack = r.stack :=
  after_invariant (P := fun r' => r'.stack = r.stack)
    (fun call _ r' h => (follow t kind r' call.root).stack_eq.trans h) rfl

theorem remembers_after (t : FileTree) (kind : DocumentKind) (r : Resolver) (calls : List Call) :
    r.Remembers (r.after t kind calls) :=
  after_invariant (fun call _ _ h => h.trans (remembers_follow t kind _ call.root)) (.refl r)

theorem after_append (calls others : List Call) :
    r.after t kind (calls ++ others) = (r.after t kind calls).after t kind others :=
  List.foldl_append

/-! ## Answers that do not depend on earlier calls -/

theorem knows_after (h : NamesAlike t kind known) (hroots : ∀ call ∈ calls, known call.root) :
    Knows t kind known (new.after t kind calls) := by
  have hinvariant : (new.after t kind calls).stack = [] ∧
      Knows t kind known (new.after t kind calls) := by
    refine after_invariant (P := fun r => r.stack = [] ∧ Knows t kind known r) ?_ ⟨rfl, knows_new⟩
    rintro call hcall r ⟨hstack, hr⟩
    exact ⟨(follow t kind r call.root).stack_eq.trans hstack,
      (follow_eq_search_nil h (hroots call hcall) hr hstack).2⟩
  exact hinvariant.2

/-- After any calls, a document in question is searched as it would be without memory. -/
theorem follow_after (h : NamesAlike t kind known) (hroots : ∀ call ∈ calls, known call.root)
    (hpath : known path) :
    (follow t kind (new.after t kind calls) path).result = t.search kind [] path :=
  (follow_eq_search_nil h hpath (knows_after h hroots) (stack_after t kind new calls)).1

theorem answer_after (h : NamesAlike t kind known) (hroots : ∀ call ∈ calls, known call.root)
    (hroot : known call.root) :
    (call.answer t kind (new.after t kind calls)).1 = (call.answer t kind new).1 := by
  have hnew : (follow t kind new call.root).result = t.search kind [] call.root :=
    (follow_eq_search_nil h hroot knows_new rfl).1
  rw [answer_fst, answer_fst, follow_after h hroots hroot, hnew]

/-- Earlier calls do not show in the answers about TeX documents. -/
structure Unseen (t : FileTree) (earlier : List Call) : Prop where
  /-- Between two calls no document is being searched. -/
  stack_eq : (new.after t .tex earlier).stack = []
  /-- An answer, or an error, is that of a resolver that knows nothing. -/
  answer_eq : ∀ call : Call,
    (call.answer t .tex (new.after t .tex earlier)).1 = (call.answer t .tex new).1
  /-- The dependencies are the files that the root names, and in the order of these the
  dependencies of those that exist, each where it comes first. -/
  dependencies_eq : ∀ root deps,
    ((new.after t .tex earlier).recursive t .tex root).1 = .ok deps →
    ∃ direct, ∃ found : Path → List Path, t.namedBy .tex root = .ok direct ∧
      (∀ named ∈ direct, t.exists named = true → ∀ others,
        ((new.after t .tex others).recursive t .tex named).1 = .ok (found named)) ∧
      deps = Text.distinct (direct ++ (direct.filter t.exists).flatMap found)

/-- **After any calls, successful or not, the answers about TeX documents are those of a new
resolver.** -/
theorem unseen_after (t : FileTree) (earlier : List Call) : Unseen t earlier where
  stack_eq := stack_after t .tex new earlier
  answer_eq call := answer_after (namesAlike_tex t) (fun _ _ => trivial) trivial
  dependencies_eq root deps hdeps := by
    have hfollow : ∀ others path,
        ((new.after t .tex others).recursive t .tex path).1 = t.search .tex [] path :=
      fun others path => follow_after (namesAlike_tex t) (fun _ _ => trivial) trivial
    rw [hfollow] at hdeps
    obtain ⟨place, direct, found, -, -, hd, hfound, hdeps⟩ := FileTree.search_eq_ok_iff.1 hdeps
    refine ⟨direct, found, hd, fun named hnamed hexists others => ?_, hdeps⟩
    rw [hfollow]
    exact FileTree.search_of_notMem (hfound named ⟨⟨direct, hd, hnamed⟩, hexists⟩)
      fun _ _ _ _ => List.not_mem_nil

/-! ## Answers that depend on earlier calls -/

/-- The document is a root of one of the calls, or reached from one. -/
def Met (t : FileTree) (kind : DocumentKind) (calls : List Call) (path : Path) : Prop :=
  ∃ call ∈ calls, t.Reaches kind call.root path

theorem Met.includes (h : Met t kind calls path) (hnamed : t.Includes kind path path') :
    Met t kind calls path' := by
  obtain ⟨call, hcall, hreaches⟩ := h
  exact ⟨call, hcall, hreaches.tail hnamed⟩

theorem accounts_after
    (hclosed : ∀ path named, known path → t.Includes kind path named → known named)
    (hroots : ∀ call ∈ calls, known call.root) :
    Accounts t kind known (new.after t kind calls) := by
  refine after_invariant (fun call hcall r hr => accounts_follow hclosed (hroots call hcall) hr) ?_
  intro place deps hc
  cases hc

/-- What was found once is known after all later calls. -/
theorem remembered_after {earlier : List Call} (later : List Call)
    (hdeps : ((new.after t kind earlier).recursive t kind path).1 = .ok deps) :
    (new.after t kind (earlier ++ .recursive path :: later)).remembered t path = some deps := by
  rw [after_append]
  exact (remembers_after t kind _ later).remembered (remembered_follow hdeps)

/-- What is known is the answer. -/
theorem recursive_of_remembered (h : r.remembered t path = some deps) :
    (r.recursive t kind path).1 = .ok deps := by
  rw [recursive, follow_of_remembered h]

/-- What LyX documents name is kept in the spelling in which they were first searched. -/
structure FirstSpelling (t : FileTree) (earlier : List Call) : Prop where
  /-- Between two calls no document is being searched. -/
  stack_eq : (new.after t .lyx earlier).stack = []
  /-- An answer, or an error, is that of a resolver that knows nothing, if of the documents that
  were met those at one place are in a directory of one path. -/
  answer_eq : ∀ call : Call,
    (∀ path path', Met t .lyx (earlier ++ [call]) path → Met t .lyx (earlier ++ [call]) path' →
      t.place? path = t.place? path' → path.parent = path'.parent) →
    (call.answer t .lyx (new.after t .lyx earlier)).1 = (call.answer t .lyx new).1
  /-- The dependencies found for a document are those of all others at its place, ever after. -/
  again : ∀ root root' deps later, t.place? root = t.place? root' →
    ((new.after t .lyx earlier).recursive t .lyx root).1 = .ok deps →
    ((new.after t .lyx (earlier ++ .recursive root :: later)).recursive t .lyx root').1 = .ok deps
  /-- The dependencies are the files that some document at the place names that was met, and what
  is found now for those that exist. -/
  dependencies_eq : ∀ root deps,
    ((new.after t .lyx earlier).recursive t .lyx root).1 = .ok deps →
    ∃ first direct, ∃ found : Path → List Path,
      Met t .lyx (earlier ++ [.recursive root]) first ∧ t.place? first = t.place? root ∧
      t.namedBy .lyx first = .ok direct ∧
      (∀ named ∈ direct, t.exists named = true → ∀ later,
        ((new.after t .lyx (earlier ++ .recursive root :: later)).recursive t .lyx named).1 =
          .ok (found named)) ∧
      deps = Text.distinct (direct ++ (direct.filter t.exists).flatMap found)

/-- **After any calls, successful or not, the answers about LyX documents are those of a new
resolver, but for the spelling of what was found before.** -/
theorem firstSpelling_after (t : FileTree) (earlier : List Call) : FirstSpelling t earlier where
  stack_eq := stack_after t .lyx new earlier
  answer_eq call hparent :=
    answer_after (namesAlike_lyx (fun _ _ h => h.includes) hparent)
      (fun c hc => ⟨c, List.mem_append_left _ hc, .refl⟩)
      ⟨call, List.mem_append_right _ List.mem_cons_self, .refl⟩
  again root root' deps later heq hdeps := by
    have hknown := remembered_after later hdeps
    rw [remembered, heq] at hknown
    exact recursive_of_remembered hknown
  dependencies_eq root deps hdeps := by
    have hroots : ∀ call ∈ earlier ++ [.recursive root],
        Met t .lyx (earlier ++ [.recursive root]) call.root :=
      fun call hcall => ⟨call, hcall, .refl⟩
    have haccounts : Accounts t .lyx (Met t .lyx (earlier ++ [.recursive root]))
        (new.after t .lyx (earlier ++ [.recursive root])) :=
      accounts_after (fun _ _ h => h.includes) hroots
    obtain ⟨place, hp, hc⟩ := remembered_eq_some_iff.1 (remembered_after [] hdeps)
    obtain ⟨first, direct, found, hmet, hfirst, hd, hfound, rfl⟩ := haccounts place deps hc
    refine ⟨first, direct, found, hmet, hfirst.trans hp.symm, hd, ?_, rfl⟩
    intro named hnamed hexists later
    have hknown := hfound named ⟨⟨direct, hd, hnamed⟩, hexists⟩
    rw [List.append_cons, after_append]
    exact recursive_of_remembered ((remembers_after t .lyx _ later).remembered hknown)

/-- A document that names a picture beside it. -/
def pictureTree : FileTree :=
  (FileTree.empty "/w").addFile ["c.lyx"] (Utf8.encode "filename \"f.png\"\n")

/-- **The spelling shows**: after the document was searched under another path, the answer is not
what it would be, and it does not have the file that the document names. -/
theorem answer_respelled :
    ((Call.recursive "c.lyx").answer pictureTree .lyx
      (new.after pictureTree .lyx [.recursive "./c.lyx"])).1 = .ok ["./f.png"] ∧
    ((Call.recursive "c.lyx").answer pictureTree .lyx new).1 = .ok ["f.png"] ∧
    pictureTree.namedBy .lyx "c.lyx" = .ok ["f.png"] := by
  decide +kernel

end TexSymbols.Resolver

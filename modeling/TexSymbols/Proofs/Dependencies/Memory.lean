import TexSymbols.Proofs.Dependencies.Levels
import TexSymbols.Proofs.OrderedMap

/-!
# What a resolver remembers

* `Resolver.Remembers` — a resolver knows what another one knew; `remembers_follow` — after a
  search; `remembered_follow` — what the search finds is then known too.
* `Resolver.Accounts` — what is known of a document is what it names and what is known of that;
  `accounts_follow` — after a search, if it was before.
* `Resolver.NamesAlike` — of the documents in question, those at one place name the same files;
  `Resolver.Knows` — only what searches without memory find is known.
* `follow_eq_search` — then a search finds what it would find without memory.
* `namesAlike_tex`, `namesAlike_lyx` — where that is so.
-/

namespace TexSymbols.Resolver

variable {t : FileTree} {kind : DocumentKind} {known : Path → Prop} {stack : List Place}
  {place : Place} {path path' named : Path} {paths deps direct further : List Path}
  {r r' r'' : Resolver}

/-! ## What is remembered -/

/-- What was known by `r` is known by `r'`. -/
def Remembers (r r' : Resolver) : Prop :=
  ∀ place deps, r.cache.find? place = some deps → r'.cache.find? place = some deps

theorem Remembers.refl (r : Resolver) : r.Remembers r := fun _ _ h => h

theorem Remembers.trans (h : r.Remembers r') (h' : r'.Remembers r'') : r.Remembers r'' :=
  fun place deps hc => h' place deps (h place deps hc)

theorem find?_store : (r.store path place deps).cache.find? place = some deps := by
  rw [store, OrderedMap.find?_insert, if_pos rfl]

theorem find?_store_of_ne {other : Place} (h : other ≠ place) :
    (r.store path place deps).cache.find? other = r.cache.find? other := by
  rw [store, OrderedMap.find?_insert, if_neg h]

/-- What is known after storing was stored or was known before. -/
theorem of_find?_store {other : Place} {deps' : List Path}
    (h : (r.store path place deps).cache.find? other = some deps') :
    other = place ∧ deps' = deps ∨ r.cache.find? other = some deps' := by
  by_cases heq : other = place
  · subst heq
    rw [find?_store] at h
    exact .inl ⟨rfl, (Option.some.inj h).symm⟩
  · rw [find?_store_of_ne heq] at h
    exact .inr h

/-- What is stored at a place of which nothing was known does not touch what was known. -/
theorem Remembers.store (h : r.Remembers r') (hc : r.cache.find? place = none) :
    r.Remembers (r'.store path place deps) := by
  intro other deps' hother
  have hne : other ≠ place := by
    rintro rfl
    rw [hc] at hother
    cases hother
  rw [find?_store_of_ne hne]
  exact h other deps' hother

/-- **A search forgets nothing.** -/
theorem remembers_follow (t : FileTree) (kind : DocumentKind) (r : Resolver) (path : Path) :
    r.Remembers (follow t kind r path).resolver := by
  refine follow_resolver (Q := fun r _ r' => r.Remembers r') (fun r _ => .refl r) ?_ r path
  intro r path place direct _ hc _ _ ih
  have hinner : r.Remembers (inside t kind r place direct).resolver :=
    each_invariant (P := r.Remembers) (fun _ _ h => h)
      (fun file hfile inner hinner h => h.trans (ih file hfile inner hinner))
      (r.stack_enter place) (.refl r)
  exact finish_resolver (P := r.Remembers) _ hinner fun _ _ => Remembers.store hinner hc

/-- **Nothing is stored for a document that is being searched.** -/
theorem find?_follow_of_mem_stack (hplace : place ∈ r.stack) (hc : r.cache.find? place = none) :
    (follow t kind r path).resolver.cache.find? place = none := by
  refine follow_resolver (Q := fun r _ r' => place ∈ r.stack → r.cache.find? place = none →
    r'.cache.find? place = none) (fun _ _ _ hc => hc) ?_ r path hplace hc
  intro r path entered direct _ _ _ hs ih hplace hc
  have hne : place ≠ entered := fun h => hs (h ▸ hplace)
  have hinner : (inside t kind r entered direct).resolver.cache.find? place = none :=
    each_invariant (P := fun r => r.cache.find? place = none) (fun _ _ h => h)
      (fun file hfile inner hinner h =>
        ih file hfile inner hinner (hinner ▸ List.mem_cons_of_mem _ hplace) h)
      (r.stack_enter entered) hc
  exact finish_resolver (P := fun r => r.cache.find? place = none) _ hinner
    fun _ _ => (find?_store_of_ne hne).trans hinner

/-! ## What is known is accounted for -/

/-- What is known of a document. -/
def remembered (t : FileTree) (r : Resolver) (path : Path) : Option (List Path) :=
  (t.place? path).bind r.cache.find?

theorem remembered_eq_some_iff : r.remembered t path = some deps ↔
    ∃ place, t.place? path = some place ∧ r.cache.find? place = some deps :=
  Option.bind_eq_some_iff

theorem Remembers.remembered (h : r.Remembers r') (hknown : r.remembered t path = some deps) :
    r'.remembered t path = some deps := by
  obtain ⟨place, hp, hc⟩ := remembered_eq_some_iff.1 hknown
  exact remembered_eq_some_iff.2 ⟨place, hp, h place deps hc⟩

theorem follow_of_remembered (h : r.remembered t path = some deps) :
    follow t kind r path = ⟨.ok deps, r, rfl⟩ := by
  obtain ⟨place, hp, hc⟩ := remembered_eq_some_iff.1 h
  exact follow_of_known hp hc

/-- **What a search finds is known when it ends.** -/
theorem remembered_follow (h : (follow t kind r path).result = .ok deps) :
    (follow t kind r path).resolver.remembered t path = some deps := by
  have hends := ends_follow t kind r path
  generalize follow t kind r path = s at hends h ⊢
  cases hends with
  | missing => cases h
  | known hp hc =>
    cases h
    exact remembered_eq_some_iff.2 ⟨_, hp, hc⟩
  | cycle => cases h
  | unreadable => cases h
  | named hp =>
    unfold Search.finish at h ⊢
    split at h
    · cases h
    · cases h
      exact remembered_eq_some_iff.2 ⟨_, hp, find?_store⟩

/-- The dependencies are the files that a known document at the place names, and what is known of
those that exist. -/
def AccountsFor (t : FileTree) (kind : DocumentKind) (known : Path → Prop) (r : Resolver)
    (place : Place) (deps : List Path) : Prop :=
  ∃ path direct, ∃ found : Path → List Path, known path ∧ t.place? path = some place ∧
    t.namedBy kind path = .ok direct ∧
    (∀ named, t.Includes kind path named → r.remembered t named = some (found named)) ∧
    deps = Text.distinct (direct ++ (direct.filter t.exists).flatMap found)

/-- All that is known is accounted for. -/
def Accounts (t : FileTree) (kind : DocumentKind) (known : Path → Prop) (r : Resolver) : Prop :=
  ∀ place deps, r.cache.find? place = some deps → AccountsFor t kind known r place deps

theorem AccountsFor.mono (h : AccountsFor t kind known r place deps) (hr : r.Remembers r') :
    AccountsFor t kind known r' place deps := by
  obtain ⟨path, direct, found, hknown, hp, hd, hfound, hdeps⟩ := h
  exact ⟨path, direct, found, hknown, hp, hd,
    fun named hnamed => hr.remembered (hfound named hnamed), hdeps⟩

theorem Accounts.store (h : Accounts t kind known r) (hc : r.cache.find? place = none)
    (hdeps : AccountsFor t kind known r place deps) :
    Accounts t kind known (r.store path place deps) := by
  have hr : r.Remembers (r.store path place deps) := (Remembers.refl r).store hc
  intro other deps' hother
  rcases of_find?_store hother with ⟨rfl, rfl⟩ | hother
  · exact hdeps.mono hr
  · exact (h other deps' hother).mono hr

/-- What is found inside a search is what is known of each file then. -/
theorem remembered_inside (hfurther : (inside t kind r place direct).result = .ok further) :
    ∃ found : Path → List Path,
      (∀ named ∈ direct.filter t.exists,
        (inside t kind r place direct).resolver.remembered t named = some (found named)) ∧
      further = (direct.filter t.exists).flatMap found := by
  refine each_known (remembered t) (fun _ _ => rfl) ?_ ?_ (r.stack_enter place) hfurther
  · exact fun inner _ named _ _ hknown => (remembers_follow t kind inner named).remembered hknown
  · exact fun _ _ _ _ hresult => remembered_follow hresult

/-- **What is known stays accounted for.** -/
theorem accounts_follow
    (hclosed : ∀ path named, known path → t.Includes kind path named → known named)
    (hpath : known path) (hr : Accounts t kind known r) :
    Accounts t kind known (follow t kind r path).resolver := by
  refine follow_resolver (Q := fun r path r' => known path → Accounts t kind known r →
    Accounts t kind known r') (fun _ _ _ hr => hr) ?_ r path hpath hr
  intro r path place direct hp hc hd _ ih hpath hr
  have hinner : Accounts t kind known (inside t kind r place direct).resolver :=
    each_invariant (fun _ _ h => h)
      (fun file hfile inner hinner =>
        ih file hfile inner hinner (hclosed path file hpath ((FileTree.includes_iff hd).2 hfile)))
      (r.stack_enter place) hr
  have hnew : (inside t kind r place direct).resolver.cache.find? place = none :=
    each_invariant (P := fun r => r.cache.find? place = none) (fun _ _ h => h)
      (fun _ _ inner hinner h => by
        have hplace : place ∈ inner.stack := hinner ▸ List.mem_cons_self
        exact find?_follow_of_mem_stack hplace h)
      (r.stack_enter place) hc
  refine finish_resolver (P := Accounts t kind known) _ hinner fun further hfurther => ?_
  obtain ⟨found, hfound, rfl⟩ := remembered_inside hfurther
  have hdeps : AccountsFor t kind known (inside t kind r place direct).resolver place
      (Text.distinct (direct ++ (direct.filter t.exists).flatMap found)) :=
    ⟨path, direct, found, hpath, hp, hd,
      fun file hfile => hfound file ((FileTree.includes_iff hd).1 hfile), rfl⟩
  exact Accounts.store hinner hnew hdeps

/-! ## What is known is what searches without memory find -/

/-- The documents in question lead to no others, and those at one place name the same files. -/
structure NamesAlike (t : FileTree) (kind : DocumentKind) (known : Path → Prop) : Prop where
  closed : ∀ path named, known path → t.Includes kind path named → known named
  alike : ∀ path path' direct, known path → known path' → t.place? path = t.place? path' →
    t.namedBy kind path = .ok direct → t.namedBy kind path' = .ok direct

theorem NamesAlike.reaches (h : NamesAlike t kind known) (hpath : known path)
    (hreaches : t.Reaches kind path path') : known path' := by
  induction hreaches with
  | refl => exact hpath
  | tail _ hnamed ih => exact h.closed _ _ ih hnamed

/-- What a TeX document names does not depend on how its path is written. -/
theorem namesAlike_tex (t : FileTree) : NamesAlike t .tex fun _ => True where
  closed _ _ _ _ := trivial
  alike path path' direct _ _ heq hd := by
    obtain ⟨content, hread, rfl⟩ := FileTree.namedBy_eq_ok_iff.1 hd
    have hread' : t.read? path' = some content := by rwa [FileTree.read?, ← heq]
    exact FileTree.namedBy_eq_ok_iff.2 ⟨content, hread', rfl⟩

/-- What a LyX document names depends on the path of the directory in which it is. -/
theorem namesAlike_lyx
    (hclosed : ∀ path named, known path → t.Includes .lyx path named → known named)
    (hparent : ∀ path path', known path → known path' → t.place? path = t.place? path' →
      path.parent = path'.parent) : NamesAlike t .lyx known where
  closed := hclosed
  alike path path' direct hpath hpath' heq hd := by
    obtain ⟨content, hread, rfl⟩ := FileTree.namedBy_eq_ok_iff.1 hd
    have hread' : t.read? path' = some content := by rwa [FileTree.read?, ← heq]
    have hline : DocumentKind.lyx.namesInLine path = DocumentKind.lyx.namesInLine path' := by
      funext line
      simp only [DocumentKind.namesInLine, hparent path path' hpath hpath' heq]
    refine FileTree.namedBy_eq_ok_iff.2 ⟨content, hread', ?_⟩
    rw [DocumentKind.namesIn, DocumentKind.namesIn, hline]

/-- A resolver knows nothing but what searches without memory find. -/
def Knows (t : FileTree) (kind : DocumentKind) (known : Path → Prop) (r : Resolver) : Prop :=
  ∀ place deps, r.cache.find? place = some deps →
    ∃ path, known path ∧ t.place? path = some place ∧ t.search kind [] path = .ok deps

theorem knows_new : Knows t kind known new := by
  intro place deps hc
  cases hc

/-- The documents at these places lead to the file. -/
def LeadTo (t : FileTree) (kind : DocumentKind) (known : Path → Prop) (stack : List Place)
    (path : Path) : Prop :=
  ∀ place ∈ stack, ∃ before, known before ∧ t.place? before = some place ∧
    t.Leads kind before path

theorem Knows.store (h : Knows t kind known r) (hpath : known path)
    (hp : t.place? path = some place) (hsearch : t.search kind [] path = .ok deps) :
    Knows t kind known (r.store path place deps) := by
  intro other deps' hother
  rcases of_find?_store hother with ⟨rfl, rfl⟩ | hother
  · exact ⟨path, hpath, hp, hsearch⟩
  · exact h other deps' hother

theorem LeadTo.cons (h : LeadTo t kind known stack path) (hpath : known path)
    (hp : t.place? path = some place) (hnamed : t.Includes kind path named) :
    LeadTo t kind known (place :: stack) named := by
  intro other hother
  rcases List.mem_cons.1 hother with rfl | hother
  · exact ⟨path, hpath, hp, .single hnamed⟩
  · obtain ⟨before, hbefore, hplace, hleads⟩ := h other hother
    exact ⟨before, hbefore, hplace, .tail hleads hnamed⟩

theorem NamesAlike.search (h : NamesAlike t kind known) (hpath : known path)
    (hpath' : known path') (heq : t.place? path = t.place? path')
    (hsearch : t.search kind stack path = .ok deps) : t.search kind stack path' = .ok deps := by
  obtain ⟨place, direct, found, hp, hs, hd, hfound, rfl⟩ := FileTree.search_eq_ok_iff.1 hsearch
  have hd' := h.alike path path' direct hpath hpath' heq hd
  have hfound' : ∀ named, t.Includes kind path' named →
      t.search kind (place :: stack) named = .ok (found named) := fun named hnamed =>
    hfound named ((FileTree.includes_iff hd).2 ((FileTree.includes_iff hd').1 hnamed))
  exact FileTree.search_eq_ok_iff.2 ⟨place, direct, found, heq ▸ hp, hs, hd', hfound', rfl⟩

/-- **What a search finds over no stack, it finds over one that leads to the document**: what is
without cycles does not lead back there. -/
theorem NamesAlike.search_of_leadTo (h : NamesAlike t kind known) (hpath : known path)
    (hlead : LeadTo t kind known stack path) (hsearch : t.search kind [] path = .ok deps) :
    t.search kind stack path = .ok deps := by
  refine FileTree.search_of_notMem hsearch fun path' place hreaches hp hmem => ?_
  obtain ⟨before, hbefore, hplace, hleads⟩ := hlead place hmem
  obtain ⟨next, hnext, hreaches'⟩ := Relation.TransGen.head'_iff.1 (hleads.trans_left hreaches)
  obtain ⟨direct, hd, -⟩ := hnext.1
  have hd' := h.alike before path' direct hbefore (h.reaches hpath hreaches)
    (hplace.trans hp.symm) hd
  -- the document met again names what the one on the stack does, so it leads to itself
  have hnext' : t.Includes kind path' next :=
    (FileTree.includes_iff hd').2 ((FileTree.includes_iff hd).1 hnext)
  exact FileTree.acyclic_of_search_eq_ok hsearch hreaches (.head' hnext' hreaches') rfl

/-- If the files that a document names are searched as they would be without memory, so is the
document. -/
theorem finish_eq_search (hpath : known path) (hp : t.place? path = some place)
    (hs : place ∉ r.stack) (hd : t.namedBy kind path = .ok direct) (hr : Knows t kind known r)
    (hbelow : ∀ named ∈ direct.filter t.exists, ∀ inner : Resolver,
      inner.stack = place :: r.stack → Knows t kind known inner →
      (follow t kind inner named).result = t.search kind (place :: r.stack) named ∧
        Knows t kind known (follow t kind inner named).resolver) :
    ((inside t kind r place direct).finish path direct).result = t.search kind r.stack path ∧
      Knows t kind known ((inside t kind r place direct).finish path direct).resolver := by
  obtain ⟨hresult, hinner⟩ :
      (inside t kind r place direct).result =
          ((direct.filter t.exists).mapM (t.search kind (place :: r.stack))).map List.flatten ∧
        Knows t kind known (inside t kind r place direct).resolver :=
    each_result (fun _ _ h => h) hbelow (r.stack_enter place) hr
  have hfinish : ((inside t kind r place direct).finish path direct).result =
      t.search kind r.stack path := by
    rw [finish_result, hresult, FileTree.search_of_notMem_stack hp hs, hd, Except.bind]
    cases (direct.filter t.exists).mapM (t.search kind (place :: r.stack)) <;> rfl
  refine ⟨hfinish, finish_resolver (P := Knows t kind known) _ hinner fun further hfurther => ?_⟩
  rw [finish_result, hfurther] at hfinish
  have hsearch : t.search kind [] path = .ok (Text.distinct (direct ++ further)) :=
    FileTree.search_of_notMem hfinish.symm fun _ _ _ _ => List.not_mem_nil
  exact Knows.store hinner hpath hp hsearch

/-- **Memory does not change what a search finds**, if the documents at one place name the same
files and nothing is known but what searches without memory find. -/
theorem follow_eq_search (h : NamesAlike t kind known) (hpath : known path)
    (hr : Knows t kind known r) (hlead : LeadTo t kind known r.stack path) :
    (follow t kind r path).result = t.search kind r.stack path ∧
      Knows t kind known (follow t kind r path).resolver := by
  induction r, path using follow_induction t with
  | step r path ih =>
    have hends := ends_follow t kind r path
    generalize follow t kind r path = s at hends ⊢
    cases hends with
    | missing hp => exact ⟨(FileTree.search_of_missing hp).symm, hr⟩
    | @known place deps hp hc =>
      obtain ⟨path', hpath', hp', hsearch⟩ := hr place deps hc
      have hsearch' := h.search hpath' hpath (hp'.trans hp.symm) hsearch
      exact ⟨(h.search_of_leadTo hpath hlead hsearch').symm, hr⟩
    | cycle hp hs => exact ⟨(FileTree.search_of_mem hp hs).symm, hr⟩
    | unreadable hp hs hd =>
      refine ⟨?_, hr⟩
      rw [FileTree.search_of_notMem_stack hp hs, hd, Except.bind]
    | @named place direct hp _ hs hd =>
      refine finish_eq_search hpath hp hs hd hr fun named hnamed inner hinner hknows => ?_
      have hincludes := (FileTree.includes_iff hd).2 hnamed
      have hplace := FileTree.mem_filesOff hp hs hd
      rw [← hinner]
      exact ih place hplace inner named hinner (h.closed path named hpath hincludes) hknows
        (hinner ▸ hlead.cons hpath hp hincludes)

/-- So it is for a document that is not searched for another one. -/
theorem follow_eq_search_nil (h : NamesAlike t kind known) (hpath : known path)
    (hr : Knows t kind known r) (hstack : r.stack = []) :
    (follow t kind r path).result = t.search kind [] path ∧
      Knows t kind known (follow t kind r path).resolver := by
  have hlead : LeadTo t kind known r.stack path := by
    rw [hstack]
    exact fun _ hplace => absurd hplace List.not_mem_nil
  rw [← hstack]
  exact follow_eq_search h hpath hr hlead

end TexSymbols.Resolver

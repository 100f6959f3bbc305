import TexSymbols.Proofs.Dependencies.Memory

/-!
# Searches that end, and searches that succeed

* `Resolver.Resolution` — what asking a new resolver for the dependencies of a TeX document comes
  to; `resolution_new` — in every tree, for every root.
-/

namespace TexSymbols.Resolver

variable {t : FileTree} {path : Path} {deps : List Path}

theorem recursive_new (t : FileTree) (root : Path) :
    (new.recursive t .tex root).1 = t.search .tex [] root :=
  (follow_eq_search_nil (namesAlike_tex t) trivial knows_new rfl).1

/-- A chain of documents from the root, each of which names the next, to one that is reached. -/
structure Chain (t : FileTree) (root : Path) (before : List Path) (last : Path) : Prop where
  head_eq : (before ++ [last]).head? = some root
  includes : (before ++ [last]).IsChain (t.Includes .tex)

/-- What the search of a TeX document comes to, if nothing is known. -/
structure Resolution (t : FileTree) (root : Path) : Prop where
  /-- The search ends: it does not matter what would be done on a level below as many as there are
  files, and one more. -/
  ends : ∀ bottom : ∀ (r : Resolver) (_ : Path), Search r.stack,
    ((unroll t .tex)^[t.files.size + 1] bottom new root).result = (new.recursive t .tex root).1
  /-- It succeeds exactly if all that is reached can be read and nothing there leads back to its own
  place. -/
  succeeds_iff : (∃ deps, (new.recursive t .tex root).1 = .ok deps) ↔
    ∀ path, t.Reaches .tex root path → (t.read? path).isSome ∧
      ∀ path', t.Leads .tex path path' → t.place? path' ≠ t.place? path
  nodup : ∀ deps, (new.recursive t .tex root).1 = .ok deps → deps.Nodup
  /-- What is found is what the root names, or something that is reached. -/
  mem_iff : ∀ deps named, (new.recursive t .tex root).1 = .ok deps →
    (named ∈ deps ↔ ∃ path, t.Reaches .tex root path ∧ t.Names .tex path named)
  /-- A cycle that is reported is there: the stack stands for a chain of documents from the root,
  and the last one of them names one of the files that the chain went through. -/
  cycle : ∀ path stack, (new.recursive t .tex root).1 = .error (.cycle path stack) →
    ∃ before last, Chain t root before last ∧
      before.map (fun file => (t.place? file).map t.canonical) = stack.map some ∧
      (t.place? last).map t.canonical = some path ∧
      ∃ earlier ∈ before, t.place? earlier = t.place? last
  /-- A file that is reported as unreadable is reached, and cannot be read for the given reason;
  documents need not be texts. -/
  unreadable : ∀ path fault, (new.recursive t .tex root).1 = .error (.unreadable path fault) →
    t.Reaches .tex root path ∧ t.read? path = none ∧ fault = t.fault path ∧ fault ≠ .notText

theorem unroll_new (t : FileTree) (root : Path)
    (bottom : ∀ (r : Resolver) (_ : Path), Search r.stack) :
    ((unroll t .tex)^[t.files.size + 1] bottom new root).result =
      (new.recursive t .tex root).1 := by
  have hdepth : (t.filesOff new.stack).length < t.files.size + 1 := by
    have hle : (t.filesOff new.stack).length ≤ t.files.keys.length := List.length_filter_le _ _
    rw [OrderedMap.keys, List.length_map] at hle
    exact Nat.lt_succ_of_le hle
  rw [iterate_unroll bottom hdepth, recursive]

theorem exists_recursive_new_iff (t : FileTree) (root : Path) :
    (∃ deps, (new.recursive t .tex root).1 = .ok deps) ↔
      ∀ path, t.Reaches .tex root path → (t.read? path).isSome ∧
        ∀ path', t.Leads .tex path path' → t.place? path' ≠ t.place? path := by
  rw [recursive_new]
  constructor
  · rintro ⟨deps, hdeps⟩ path hreaches
    exact ⟨FileTree.isSome_read?_of_search_eq_ok hdeps hreaches,
      fun path' hleads => FileTree.acyclic_of_search_eq_ok hdeps hreaches hleads⟩
  · intro h
    exact FileTree.exists_search_eq_ok (fun path hreaches => (h path hreaches).1)
      (fun path path' hreaches => (h path hreaches).2 path')
      (fun _ _ _ _ => List.not_mem_nil)

/-- **A cycle that is reported is there.** -/
theorem exists_chain_of_cycle {root : Path} {stack : List Path}
    (h : (new.recursive t .tex root).1 = .error (.cycle path stack)) :
    ∃ before last, Chain t root before last ∧
      before.map (fun file => (t.place? file).map t.canonical) = stack.map some ∧
      (t.place? last).map t.canonical = some path ∧
      ∃ earlier ∈ before, t.place? earlier = t.place? last := by
  rw [recursive_new] at h
  obtain ⟨before, last, places, hchain, hhead, -, hplaces, hfails⟩ :=
    FileTree.exists_chain_of_search_eq_error h
  rw [List.append_nil] at hfails
  cases hfails with
  | @cycle place hp hs =>
    rw [List.reverse_reverse]
    refine ⟨before, last, ⟨hhead, hchain⟩, ?_, ?_, ?_⟩
    · calc before.map (fun file => (t.place? file).map t.canonical)
          = (before.map t.place?).map (Option.map t.canonical) := by rw [List.map_map]; rfl
        _ = (places.map some).map (Option.map t.canonical) := by rw [hplaces]
        _ = (places.map t.canonical).map some := by simp only [List.map_map, Function.comp_def,
              Option.map_some]
    · rw [hp, Option.map_some]
    · have hmem : some place ∈ before.map t.place? := by
        rw [hplaces]
        exact List.mem_map_of_mem (List.mem_reverse.1 hs)
      obtain ⟨earlier, hearlier, heq⟩ := List.mem_map.1 hmem
      exact ⟨earlier, hearlier, heq.trans hp.symm⟩

theorem reaches_of_unreadable {root : Path} {fault : Fault}
    (h : (new.recursive t .tex root).1 = .error (.unreadable path fault)) :
    t.Reaches .tex root path ∧ t.read? path = none ∧ fault = t.fault path ∧ fault ≠ .notText := by
  rw [recursive_new] at h
  obtain ⟨before, last, places, -, -, hreaches, -, hfails⟩ :=
    FileTree.exists_chain_of_search_eq_error h
  cases hfails with
  | unreadable hread =>
    have hfault : t.fault path ≠ .notText := by
      rw [ne_eq, FileTree.fault_eq_notText_iff, hread]
      exact Bool.false_ne_true
    exact ⟨hreaches, hread, rfl, hfault⟩

/-- **The search of a TeX document ends**, and finds what is reached or says what is wrong. -/
theorem resolution_new (t : FileTree) (root : Path) : Resolution t root where
  ends := unroll_new t root
  succeeds_iff := exists_recursive_new_iff t root
  nodup deps hdeps := by
    rw [recursive_new] at hdeps
    exact FileTree.nodup_of_search_eq_ok hdeps
  mem_iff deps named hdeps := by
    rw [recursive_new] at hdeps
    exact FileTree.mem_iff_of_search_eq_ok hdeps
  cycle _ _ h := exists_chain_of_cycle h
  unreadable _ _ h := reaches_of_unreadable h

end TexSymbols.Resolver

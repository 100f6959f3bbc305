import TexSymbols.Proofs.Usage.Merge

/-!
# Documents taken in groups

* `Text.distinct_append_distinct_left`, `distinct_append_distinct_right` — repetitions may be left
  out of a part first.
* `UsageMap.keys_merge`, `UsageMap.ext_usesOf` — the keys of two maps together; a map is given by
  its keys and the uses of each.
* `UsageMap.merge_assoc`, `merge_empty`, `empty_merge` — maps of uses under `merge` are a monoid;
  `usesInAll_flatten` — so documents may be taken in groups.
* `keys_usesInAll`, `firstLabelled_usesInAll_eq_some_iff` — the commands of all documents, and the
  document that the first label of a command comes from.
* `UsesMerged`, `usesMerged` — all of this, for every list of documents.
-/

namespace TexSymbols

/-! ## Repetitions in a part -/

namespace Text

theorem distinct_append_distinct_left (ts us : List Text) :
    distinct (distinct ts ++ us) = distinct (ts ++ us) := by
  have hfirst : distinct (distinct ts) = distinct ts := distinct_eq_self (nodup_distinct ts)
  unfold distinct at hfirst ⊢
  rw [List.foldl_append, List.foldl_append, hfirst]

theorem distinct_append_distinct_right (ts us : List Text) :
    distinct (ts ++ distinct us) = distinct (ts ++ us) := by
  induction us using List.reverseRecOn with
  | nil => rfl
  | append_singleton us u ih =>
    by_cases hu : u ∈ distinct us
    · have hmem : u ∈ distinct (ts ++ us) :=
        mem_distinct.2 (List.mem_append_right ts (mem_distinct.1 hu))
      rw [distinct_concat_of_mem hu, ih, ← List.append_assoc, distinct_concat_of_mem hmem]
    · rw [distinct_concat_of_notMem hu, ← List.append_assoc, ← List.append_assoc,
        ← distinct_append_distinct_left, ih, distinct_append_distinct_left]

end Text

namespace UsageMap

variable {m n : UsageMap} {command : Text}

/-! ## Keys and uses -/

theorem keys_record (m : UsageMap) (command : Text) (uses : List Use) :
    (record m command uses).keys = Text.distinct (m.keys ++ [command]) := by
  have hkeys : Text.distinct m.keys = m.keys := Text.distinct_eq_self m.nodup_keys
  rw [record, OrderedMap.keys_insert]
  split
  · rename_i hmem
    rw [Text.distinct_concat_of_mem (hkeys.symm ▸ hmem), hkeys]
  · rename_i hmem
    rw [Text.distinct_concat_of_notMem (hkeys.symm ▸ hmem), hkeys]

/-- **The keys of both maps**, each where it comes first. -/
theorem keys_merge (m other : UsageMap) :
    (merge m other).keys = Text.distinct (m.keys ++ other.keys) := by
  suffices h : ∀ entries : List (Text × List Use),
      (entries.foldl (fun m e => record m e.1 e.2) m).keys =
        Text.distinct (m.keys ++ entries.map Prod.fst) from h other.entries
  intro entries
  induction entries generalizing m with
  | nil => rw [List.map_nil, List.append_nil, Text.distinct_eq_self m.nodup_keys]; rfl
  | cons e entries ih =>
    rw [List.foldl_cons, ih, keys_record, Text.distinct_append_distinct_left, List.map_cons,
      List.append_assoc, List.singleton_append]

theorem find?_eq_usesOf (h : command ∈ m.keys) : m.find? command = some (usesOf m command) := by
  obtain ⟨uses, huses⟩ := Option.isSome_iff_exists.1 (OrderedMap.find?_isSome_iff.2 h)
  rw [usesOf, huses, Option.getD_some]

/-- A map is given by its keys and the uses of each. -/
theorem ext_usesOf (hkeys : m.keys = n.keys) (h : ∀ command, usesOf m command = usesOf n command) :
    m = n := by
  have hentries : ∀ m : UsageMap,
      m.entries = m.keys.map fun command => (command, usesOf m command) := by
    intro m
    rw [OrderedMap.keys, List.map_map]
    refine (List.map_id _).symm.trans (List.map_congr_left fun e he => ?_)
    have hfind := OrderedMap.find?_eq_some_iff.2 (show (e.1, e.2) ∈ m.entries from he)
    rw [Function.comp_apply, usesOf, hfind]
    rfl
  apply OrderedMap.ext_entries
  rw [hentries m, hentries n, hkeys]
  exact List.map_congr_left fun command _ => by rw [h]

/-! ## Putting maps together -/

theorem merge_assoc (a b c : UsageMap) : merge (merge a b) c = merge a (merge b c) := by
  refine ext_usesOf ?_ fun command => ?_
  · simp only [keys_merge, Text.distinct_append_distinct_left, Text.distinct_append_distinct_right,
      List.append_assoc]
  · simp only [usesOf_merge, List.append_assoc]

theorem merge_empty (m : UsageMap) : merge m .empty = m := rfl

theorem empty_merge (m : UsageMap) : merge .empty m = m := by
  refine ext_usesOf ?_ fun command => ?_
  · rw [keys_merge, OrderedMap.keys_empty, List.nil_append, Text.distinct_eq_self m.nodup_keys]
  · rw [usesOf_merge]
    rfl

/-- Maps may be put together apart from what stands before them. -/
theorem foldl_merge (m : UsageMap) (maps : List UsageMap) :
    maps.foldl merge m = merge m (maps.foldl merge .empty) := by
  induction maps generalizing m with
  | nil => rfl
  | cons first maps ih =>
    rw [List.foldl_cons, List.foldl_cons, ih, ih (merge .empty first), empty_merge, merge_assoc]

end UsageMap

open UsageMap

/-! ## Documents in groups -/

theorem usesInAll_eq_foldl (documents : List (Text × Text)) :
    usesInAll documents = (documents.map fun d => usesIn d.1 d.2).foldl merge .empty := by
  rw [List.foldl_map, usesInAll]

theorem usesInAll_append (documents more : List (Text × Text)) :
    usesInAll (documents ++ more) = merge (usesInAll documents) (usesInAll more) := by
  rw [usesInAll_eq_foldl, List.map_append, List.foldl_append, ← usesInAll_eq_foldl, foldl_merge,
    ← usesInAll_eq_foldl]

/-- **Documents may be taken in groups.** -/
theorem usesInAll_flatten (groups : List (List (Text × Text))) :
    usesInAll groups.flatten = (groups.map usesInAll).foldl merge .empty := by
  induction groups with
  | nil => rfl
  | cons documents groups ih =>
    rw [List.flatten_cons, usesInAll_append, ih, List.map_cons, List.foldl_cons, empty_merge,
      ← foldl_merge]

/-- **The commands of all documents**, each where it comes first. -/
theorem keys_usesInAll (documents : List (Text × Text)) :
    (usesInAll documents).keys =
      Text.distinct (documents.flatMap fun d => (strippedLines d.2).flatMap commands) := by
  induction documents using List.reverseRecOn with
  | nil => rfl
  | append_singleton documents d ih =>
    have hlast : (usesInAll [d]).keys = Text.distinct ((strippedLines d.2).flatMap commands) := by
      rw [usesInAll_eq_foldl, List.map_singleton, List.foldl_cons, empty_merge]
      exact keys_usesIn d.1 d.2
    rw [usesInAll_append, keys_merge, ih, hlast, Text.distinct_append_distinct_left,
      Text.distinct_append_distinct_right, List.flatMap_append, List.flatMap_singleton]

/-! ## The first label -/

/-- The label of a document is that of its only use with a label. -/
theorem firstLabelled_usesIn_eq_some_iff {file text command label : Text} :
    firstLabelled (usesOf (usesIn file text) command) = some label ↔
      ∃ u ∈ usesOf (usesIn file text) command, u.label = some label := by
  constructor
  · intro h
    obtain ⟨before, u, after, huses, hlabel, -⟩ := List.findSome?_eq_some_iff.1 h
    exact ⟨u, huses ▸ List.mem_append_right before List.mem_cons_self, hlabel⟩
  · rintro ⟨u, hu, hlabel⟩
    obtain ⟨before, after, huses⟩ := List.append_of_mem hu
    cases hfind : (usesIn file text).find? command with
    | none =>
      rw [usesOf, hfind] at hu
      cases hu
    | some uses =>
      rw [usesOf, hfind, Option.getD_some] at huses
      have hrecorded := usesRecorded file text
      have hafter := hrecorded.labelled_last command uses before u after hfind huses
        (by rw [hlabel]; rfl)
      rw [usesOf, hfind, Option.getD_some, hrecorded.firstLabelled_eq command uses hfind, huses,
        hafter, List.getLast?_concat, Option.bind_some, hlabel]

/-- **The first label comes from the first document in which a use has one.** -/
theorem firstLabelled_usesInAll_eq_some_iff {documents : List (Text × Text)}
    {command label : Text} :
    firstLabelled (usesOf (usesInAll documents) command) = some label ↔
      ∃ before d after, documents = before ++ d :: after ∧
        (∃ u ∈ usesOf (usesIn d.1 d.2) command, u.label = some label) ∧
          ∀ e ∈ before, ∀ u ∈ usesOf (usesIn e.1 e.2) command, u.label = none := by
  rw [usesOf_usesInAll, firstLabelled, findSome?_flatMap, List.findSome?_eq_some_iff]
  simp only [← firstLabelled_usesIn_eq_some_iff, ← List.findSome?_eq_none_iff]
  rfl

/-! ## All at once -/

/-- What is known of the uses in several documents. -/
structure UsesMerged (documents : List (Text × Text)) : Prop where
  /-- The keys are the commands of the lines of all documents, in order of first appearance. -/
  keys_eq : (usesInAll documents).keys =
    Text.distinct (documents.flatMap fun d => (strippedLines d.2).flatMap commands)
  /-- The uses of a command are those in the first document, then those in the second, and so on. -/
  find?_eq : ∀ command ∈ (usesInAll documents).keys, (usesInAll documents).find? command =
    some (documents.flatMap fun d => usesOf (usesIn d.1 d.2) command)
  /-- The first label is that of the first document in which a use has one. -/
  firstLabelled_iff : ∀ command label,
    firstLabelled (usesOf (usesInAll documents) command) = some label ↔
      ∃ before d after, documents = before ++ d :: after ∧
        (∃ u ∈ usesOf (usesIn d.1 d.2) command, u.label = some label) ∧
          ∀ e ∈ before, ∀ u ∈ usesOf (usesIn e.1 e.2) command, u.label = none
  /-- In whatever groups the documents are taken, the uses are the same. -/
  grouped : ∀ groups : List (List (Text × Text)), groups.flatten = documents →
    (groups.map usesInAll).foldl merge .empty = usesInAll documents

/-- **The uses in several documents**, and how maps of uses are put together. -/
theorem usesMerged :
    (∀ a b c, merge (merge a b) c = merge a (merge b c)) ∧
      (∀ m, merge m .empty = m ∧ merge .empty m = m) ∧ ∀ documents, UsesMerged documents := by
  refine ⟨merge_assoc, fun m => ⟨merge_empty m, empty_merge m⟩, fun documents => ?_⟩
  exact
    { keys_eq := keys_usesInAll documents
      find?_eq := fun command hcommand => by
        rw [find?_eq_usesOf hcommand, usesOf_usesInAll]
      firstLabelled_iff := fun _ _ => firstLabelled_usesInAll_eq_some_iff
      grouped := by
        rintro groups rfl
        exact (usesInAll_flatten groups).symm }

end TexSymbols

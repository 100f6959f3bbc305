import Mathlib.Data.List.Nodup
import TexSymbols.OrderedMap

/-!
# What writing does to the entries of an ordered map

* `find?_eq_some_iff` — the value of a key is the one that stands beside it.
* `entries_insert_of_notMem` — a new key goes to the end; `entries_modify` — a known one keeps its
  place.
* `ofList_entries` — the pairs of a map give the map again.
* `values_map_modify` — a change of one value that leaves `g` alone is invisible through `g`.
* `mapValues_modify`, `mapValues_insert` — replacing all values before or after writing.
-/

namespace TexSymbols.OrderedMap

variable {κ ν μ ρ : Type}

@[simp] theorem entries_empty : (empty : OrderedMap κ ν).entries = [] := rfl

@[simp] theorem values_empty : (empty : OrderedMap κ ν).values = [] := rfl

@[simp] theorem keys_empty : (empty : OrderedMap κ ν).keys = [] := rfl

theorem nodup_keys (m : OrderedMap κ ν) : m.keys.Nodup := m.nodup

theorem mem_values {m : OrderedMap κ ν} {v : ν} : v ∈ m.values ↔ ∃ k, (k, v) ∈ m.entries := by
  simp [values]

theorem mem_keys {m : OrderedMap κ ν} {k : κ} : k ∈ m.keys ↔ ∃ v, (k, v) ∈ m.entries := by
  simp [keys]

/-- A key stands beside one value only. -/
theorem value_unique {m : OrderedMap κ ν} {k : κ} {v w : ν} (hv : (k, v) ∈ m.entries)
    (hw : (k, w) ∈ m.entries) : v = w := by
  have h := List.inj_on_of_nodup_map m.nodup hv hw rfl
  exact congrArg Prod.snd h

theorem entries_mapValues (f : κ → ν → μ) (m : OrderedMap κ ν) :
    (m.mapValues f).entries = m.entries.map fun e => (e.1, f e.1 e.2) := rfl

theorem values_mapValues (f : κ → ν → μ) (m : OrderedMap κ ν) :
    (m.mapValues f).values = m.entries.map fun e => f e.1 e.2 := by
  simp [values, entries_mapValues]

@[simp] theorem size_mapValues (f : κ → ν → μ) (m : OrderedMap κ ν) :
    (m.mapValues f).size = m.size := by
  simp [size, entries_mapValues]

theorem mapValues_mapValues (f : κ → ν → μ) (g : κ → μ → ρ) (m : OrderedMap κ ν) :
    (m.mapValues f).mapValues g = m.mapValues fun k v => g k (f k v) := by
  apply ext_entries
  simp only [entries_mapValues, List.map_map]
  rfl

/-- Replacing values changes nothing that `g` sees, if it changes nothing of any single value. -/
theorem values_map_mapValues {g : ν → μ} {f : κ → ν → ν} (h : ∀ k v, g (f k v) = g v)
    (m : OrderedMap κ ν) :
    (m.mapValues f).values.map g = m.values.map g := by
  rw [values_mapValues, List.map_map, values, List.map_map]
  exact List.map_congr_left fun e _ => h e.1 e.2

variable [DecidableEq κ]

theorem entries_modify (m : OrderedMap κ ν) (k : κ) (f : ν → ν) :
    (m.modify k f).entries = m.entries.map fun e => (e.1, if e.1 = k then f e.2 else e.2) := rfl

@[simp] theorem size_modify (m : OrderedMap κ ν) (k : κ) (f : ν → ν) :
    (m.modify k f).size = m.size :=
  size_mapValues _ m

theorem values_map_modify {g : ν → μ} {f : ν → ν} (h : ∀ v, g (f v) = g v) (m : OrderedMap κ ν)
    (k : κ) :
    (m.modify k f).values.map g = m.values.map g :=
  values_map_mapValues (fun k' v => by split <;> simp [h]) m

theorem mem_entries_modify {m : OrderedMap κ ν} {k j : κ} {f : ν → ν} {w : ν} :
    (j, w) ∈ (m.modify k f).entries ↔ ∃ v, (j, v) ∈ m.entries ∧ (if j = k then f v else v) = w := by
  simp only [entries_modify, List.mem_map, Prod.mk.injEq]
  constructor
  · rintro ⟨e, he, rfl, rfl⟩
    exact ⟨e.2, he, rfl⟩
  · rintro ⟨v, hv, rfl⟩
    exact ⟨(j, v), hv, rfl, rfl⟩

theorem entries_insert_of_notMem {m : OrderedMap κ ν} {k : κ} (h : k ∉ m.keys) (v : ν) :
    (m.insert k v).entries = m.entries ++ [(k, v)] := by
  simp [insert, h]

theorem values_insert_of_notMem {m : OrderedMap κ ν} {k : κ} (h : k ∉ m.keys) (v : ν) :
    (m.insert k v).values = m.values ++ [v] := by
  simp [values, entries_insert_of_notMem h]

theorem size_insert_of_notMem {m : OrderedMap κ ν} {k : κ} (h : k ∉ m.keys) (v : ν) :
    (m.insert k v).size = m.size + 1 := by
  simp [size, entries_insert_of_notMem h]

theorem find?_eq_some_iff {m : OrderedMap κ ν} {k : κ} {v : ν} :
    m.find? k = some v ↔ (k, v) ∈ m.entries := by
  constructor
  · intro h
    obtain ⟨e, he, rfl⟩ := Option.map_eq_some_iff.1 h
    have hk : e.1 = k := by simpa using List.find?_some he
    exact hk ▸ List.mem_of_find?_eq_some he
  · intro h
    cases hf : m.find? k with
    | none => exact absurd (mem_keys.2 ⟨v, h⟩) (find?_eq_none.1 hf)
    | some w =>
      obtain ⟨e, he, rfl⟩ := Option.map_eq_some_iff.1 hf
      have hk : e.1 = k := by simpa using List.find?_some he
      exact congrArg some (value_unique (hk ▸ List.mem_of_find?_eq_some he) h)

/-- Replacing all values after one of them was changed is the same as before, if the change can be
made to what replaces it. -/
theorem mapValues_modify {f : κ → ν → μ} {k : κ} {g : ν → ν} {h : μ → μ}
    (hgh : ∀ v, f k (g v) = h (f k v)) (m : OrderedMap κ ν) :
    (m.modify k g).mapValues f = (m.mapValues f).modify k h := by
  rw [modify, modify, mapValues_mapValues, mapValues_mapValues]
  congr
  funext k' v
  by_cases hk : k' = k
  · subst hk
    rw [if_pos rfl, if_pos rfl, hgh]
  · rw [if_neg hk, if_neg hk]

theorem mapValues_insert (f : κ → ν → μ) (m : OrderedMap κ ν) (k : κ) (v : ν) :
    (m.insert k v).mapValues f = (m.mapValues f).insert k (f k v) := by
  by_cases hk : k ∈ m.keys
  · have hk' : k ∈ (m.mapValues f).keys := by rwa [keys_mapValues]
    rw [insert, insert, dif_pos hk, dif_pos hk']
    exact mapValues_modify (h := fun _ => f k v) (fun _ => rfl) m
  · have hk' : k ∉ (m.mapValues f).keys := by rwa [keys_mapValues]
    apply ext_entries
    rw [entries_insert_of_notMem hk', entries_mapValues, entries_insert_of_notMem hk,
      List.map_append, entries_mapValues]
    rfl

/-- An entry after writing is the one that was written, or it stood there before. -/
theorem eq_or_mem_of_mem_insert {m : OrderedMap κ ν} {k : κ} {v : ν} {e : κ × ν}
    (h : e ∈ (m.insert k v).entries) : e = (k, v) ∨ e ∈ m.entries := by
  have hfind := find?_eq_some_iff.2 h
  rw [find?_insert] at hfind
  split at hfind
  · rename_i hk
    exact .inl (Prod.ext hk (Option.some.inj hfind).symm)
  · exact .inr (find?_eq_some_iff.1 hfind)

theorem find?_isSome_iff {m : OrderedMap κ ν} {k : κ} : (m.find? k).isSome ↔ k ∈ m.keys := by
  rw [Option.isSome_iff_ne_none, ne_eq, find?_eq_none, not_not]

@[simp] theorem contains_iff {m : OrderedMap κ ν} {k : κ} : m.contains k = true ↔ k ∈ m.keys := by
  simp [contains]

/-- The values of all keys. -/
theorem filterMap_find?_keys (m : OrderedMap κ ν) : m.keys.filterMap m.find? = m.values := by
  rw [keys, values, List.filterMap_map, ← List.filterMap_eq_map]
  exact List.filterMap_congr fun e he => find?_eq_some_iff.2 he

/-- Pairs with new keys go to the end. -/
theorem entries_foldl_insert (pairs : List (κ × ν)) (m : OrderedMap κ ν)
    (h : (m.keys ++ pairs.map Prod.fst).Nodup) :
    (pairs.foldl (fun m e => m.insert e.1 e.2) m).entries = m.entries ++ pairs := by
  induction pairs generalizing m with
  | nil => simp
  | cons e pairs ih =>
    have hkey : e.1 ∉ m.keys := by
      intro hmem
      exact (List.nodup_append.1 h).2.2 e.1 hmem e.1 (by simp) rfl
    have hkeys : (m.insert e.1 e.2).keys = m.keys ++ [e.1] := by rw [keys_insert, if_neg hkey]
    rw [List.foldl_cons, ih _ (by rw [hkeys]; simpa using h), entries_insert_of_notMem hkey]
    simp

/-- The pairs of a map give the map again. -/
theorem ofList_entries (m : OrderedMap κ ν) : ofList m.entries = m := by
  have hentries := entries_foldl_insert m.entries empty (by simpa using m.nodup)
  rw [entries_empty, List.nil_append] at hentries
  exact ext_entries hentries

end TexSymbols.OrderedMap

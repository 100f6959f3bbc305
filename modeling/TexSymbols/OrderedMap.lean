import TexSymbols.Text

/-!
# Maps in order of insertion

Pairs of a key and a value, in the order in which the keys came; each key stands once.

* `OrderedMap.insert` — a new key goes to the end, a known one keeps its place and gets the new value.
* `OrderedMap.find?`, `OrderedMap.contains`, `OrderedMap.keys`, `OrderedMap.values` — reading.
* `OrderedMap.modify` — changing the value of one key.
* `keys_insert`, `find?_insert`, `keys_modify`, `find?_modify` — what writing does to what is read.
-/

namespace TexSymbols

/-- An ordered map; `nodup` says that no key stands twice. -/
structure OrderedMap (κ ν : Type) where
  entries : List (κ × ν)
  nodup : (entries.map Prod.fst).Nodup

namespace OrderedMap

variable {κ ν μ : Type}

theorem ext_entries {m n : OrderedMap κ ν} (h : m.entries = n.entries) : m = n := by
  cases m; cases n; cases h; rfl

instance [DecidableEq κ] [DecidableEq ν] : DecidableEq (OrderedMap κ ν) := fun m n =>
  decidable_of_iff (m.entries = n.entries) ⟨ext_entries, fun h => h ▸ rfl⟩

/-- The map without entries. -/
def empty : OrderedMap κ ν := ⟨[], List.nodup_nil⟩

def keys (m : OrderedMap κ ν) : List κ := m.entries.map Prod.fst

def values (m : OrderedMap κ ν) : List ν := m.entries.map Prod.snd

def size (m : OrderedMap κ ν) : Nat := m.entries.length

def isEmpty (m : OrderedMap κ ν) : Bool := m.entries.isEmpty

/-- The map with every value replaced by its image. -/
def mapValues (f : κ → ν → μ) (m : OrderedMap κ ν) : OrderedMap κ μ :=
  ⟨m.entries.map fun e => (e.1, f e.1 e.2), by simpa [Function.comp_def] using m.nodup⟩

@[simp] theorem keys_mapValues (f : κ → ν → μ) (m : OrderedMap κ ν) : (m.mapValues f).keys = m.keys := by
  simp [mapValues, keys]

variable [DecidableEq κ]

/-- The value of a key. -/
def find? (m : OrderedMap κ ν) (k : κ) : Option ν := (m.entries.find? (·.1 = k)).map Prod.snd

def contains (m : OrderedMap κ ν) (k : κ) : Bool := m.keys.contains k

/-- The map in which the value of `k`, if there is one, is replaced by its image. -/
def modify (m : OrderedMap κ ν) (k : κ) (f : ν → ν) : OrderedMap κ ν :=
  m.mapValues fun k' v => if k' = k then f v else v

/-- The map with value `v` at `k`: in place if the key is known, at the end otherwise. -/
def insert (m : OrderedMap κ ν) (k : κ) (v : ν) : OrderedMap κ ν :=
  if h : k ∈ m.keys then m.modify k fun _ => v
  else
    ⟨m.entries ++ [(k, v)], by
      rw [List.map_append, List.nodup_append]
      refine ⟨m.nodup, by simp, ?_⟩
      intro a ha b hb hab
      simp only [List.map_cons, List.map_nil, List.mem_singleton] at hb
      exact h (hb ▸ hab ▸ ha)⟩

/-- The map that holds the pairs of a list, inserted one after the other. -/
def ofList (pairs : List (κ × ν)) : OrderedMap κ ν := pairs.foldl (fun m e => m.insert e.1 e.2) empty

@[simp] theorem keys_modify (m : OrderedMap κ ν) (k : κ) (f : ν → ν) : (m.modify k f).keys = m.keys :=
  keys_mapValues _ _

theorem keys_insert (m : OrderedMap κ ν) (k : κ) (v : ν) :
    (m.insert k v).keys = if k ∈ m.keys then m.keys else m.keys ++ [k] := by
  unfold insert
  split
  · simp
  · simp [keys]

theorem find?_mapValues (f : κ → ν → μ) (m : OrderedMap κ ν) (k : κ) :
    (m.mapValues f).find? k = (m.find? k).map (f k) := by
  simp only [find?, mapValues, List.find?_map, Option.map_map]
  cases h : m.entries.find? (fun e => decide (e.1 = k)) with
  | none => simp [Function.comp_def, h]
  | some e =>
    have he := List.find?_some h
    simp only [decide_eq_true_eq] at he
    simp [Function.comp_def, h, he]

theorem find?_modify (m : OrderedMap κ ν) (k j : κ) (f : ν → ν) :
    (m.modify k f).find? j = if j = k then (m.find? j).map f else m.find? j := by
  rw [modify, find?_mapValues]
  by_cases h : j = k <;> simp [h]

theorem find?_eq_none {m : OrderedMap κ ν} {k : κ} : m.find? k = none ↔ k ∉ m.keys := by
  simp only [find?, keys, Option.map_eq_none_iff, List.find?_eq_none, List.mem_map, decide_eq_true_eq]
  exact ⟨fun h ⟨e, he, hk⟩ => h e he hk, fun h e he hk => h ⟨e, he, hk⟩⟩

/-- Reading after writing. -/
theorem find?_insert (m : OrderedMap κ ν) (k j : κ) (v : ν) :
    (m.insert k v).find? j = if j = k then some v else m.find? j := by
  unfold insert
  split
  · rename_i hk
    rw [find?_modify]
    by_cases h : j = k
    · subst h
      cases hf : m.find? j with
      | none => exact absurd hk (find?_eq_none.1 hf)
      | some w => simp
    · simp [h]
  · rename_i hk
    have hn := find?_eq_none.2 hk
    simp only [find?, Option.map_eq_none_iff] at hn
    by_cases h : j = k
    · subst h
      simp [find?, List.find?_append, hn]
    · simp [find?, List.find?_append, h, Ne.symm h]

end OrderedMap

end TexSymbols

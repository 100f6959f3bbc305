import TexSymbols.Attributes.Inherit
import TexSymbols.Proofs.OrderedMap

/-!
# What a symbol inherits

* `Attributes.Overlaid` — where the tags and the values of a symbol come from, said tag by tag;
  `overlaid_inherit` — `inherit` gives that.
* `Attributes.Contradicted` — one warning for each tag that has two values;
  `contradicted_disagreements` — `disagreements` gives those.
-/

namespace TexSymbols.Attributes

variable {above own merged : Attributes} {tag value : Text}

/-- The attributes `merged` are those of a section, `above`, together with those of a symbol,
`own`. -/
structure Overlaid (above own merged : Attributes) : Prop where
  /-- The tags of the section come first, then those that only the symbol has, each in their
  order. -/
  keys_eq : merged.keys = above.keys ++ own.keys.filter (· ∉ above.keys)
  /-- A tag that the symbol lacks has the value of the section, -/
  find?_above : ∀ tag, own.find? tag = none → merged.find? tag = above.find? tag
  /-- one that the section lacks has the symbol's, -/
  find?_own : ∀ tag, above.find? tag = none → merged.find? tag = own.find? tag
  /-- and one that both have has the symbol's too, unless it is the cross-reference. -/
  find?_both : ∀ tag v w, above.find? tag = some v → own.find? tag = some w →
    merged.find? tag = some (if tag = Tag.reference then v else w)

/-- The warnings `ws` are about the tags that section and symbol give different values: one warning
for each, in the order of the symbol's attributes, and no other. -/
def Contradicted (command : Text) (loc : Location) (above own : Attributes)
    (ws : List Warning) : Prop :=
  List.Forall₂
    (fun tag w => ∃ v v', above.find? tag = some v ∧ own.find? tag = some v' ∧ v ≠ v' ∧
      w = .disagreement command tag v v' loc)
    (own.keys.filter fun tag => tag ∈ above.keys ∧ above.find? tag ≠ own.find? tag) ws

/-! ## One attribute of the symbol -/

/-- The attributes after one attribute of the symbol. -/
def overlay (above merged : Attributes) (e : Text × Text) : Attributes :=
  if e.1 = Tag.reference ∧ (above.differing? e.1 e.2).isSome then merged else merged.insert e.1 e.2

theorem inherit_eq (above own : Attributes) :
    above.inherit own = own.entries.foldl (overlay above) above := rfl

theorem differing?_eq_some_iff {v : Text} :
    above.differing? tag value = some v ↔ above.find? tag = some v ∧ v ≠ value := by
  simp [differing?, Option.filter_eq_some_iff]

theorem isSome_differing?_iff :
    (above.differing? tag value).isSome ↔ tag ∈ above.keys ∧ above.find? tag ≠ some value := by
  rw [Option.isSome_iff_exists, ← OrderedMap.find?_isSome_iff, Option.isSome_iff_exists]
  constructor
  · rintro ⟨v, hv⟩
    obtain ⟨hv, hne⟩ := differing?_eq_some_iff.1 hv
    exact ⟨⟨v, hv⟩, by simpa [hv] using hne⟩
  · rintro ⟨⟨v, hv⟩, hne⟩
    exact ⟨v, differing?_eq_some_iff.2 ⟨hv, by simpa [hv] using hne⟩⟩

theorem find?_overlay_of_ne {e : Text × Text} (h : tag ≠ e.1) :
    (overlay above merged e).find? tag = merged.find? tag := by
  unfold overlay
  split
  · rfl
  · rw [OrderedMap.find?_insert, if_neg h]

theorem find?_overlay_self :
    (overlay above merged (tag, value)).find? tag =
      if tag = Tag.reference ∧ (above.differing? tag value).isSome then merged.find? tag
      else some value := by
  unfold overlay
  split
  · rfl
  · rw [OrderedMap.find?_insert, if_pos rfl]

/-- An attribute with a known tag adds no tag, -/
theorem keys_overlay_of_mem {e : Text × Text} (h : e.1 ∈ merged.keys) :
    (overlay above merged e).keys = merged.keys := by
  unfold overlay
  split
  · rfl
  · rw [OrderedMap.keys_insert, if_pos h]

/-- and one with a new tag adds it: only tags of the section are passed over. -/
theorem keys_overlay_of_notMem (habove : above.keys ⊆ merged.keys) {e : Text × Text}
    (h : e.1 ∉ merged.keys) : (overlay above merged e).keys = merged.keys ++ [e.1] := by
  unfold overlay
  split
  · rename_i hd
    exact absurd (habove (isSome_differing?_iff.1 hd.2).1) h
  · rw [OrderedMap.keys_insert, if_neg h]

/-! ## All of them -/

theorem find?_foldl_overlay_of_notMem {es : List (Text × Text)} (h : tag ∉ es.map Prod.fst) :
    (es.foldl (overlay above) merged).find? tag = merged.find? tag := by
  induction es generalizing merged with
  | nil => rfl
  | cons e es ih =>
    rw [List.map_cons, List.mem_cons, not_or] at h
    rw [List.foldl_cons, ih h.2, find?_overlay_of_ne h.1]

theorem find?_foldl_overlay_of_mem {es : List (Text × Text)} (hes : (es.map Prod.fst).Nodup)
    (h : (tag, value) ∈ es) :
    (es.foldl (overlay above) merged).find? tag =
      if tag = Tag.reference ∧ (above.differing? tag value).isSome then merged.find? tag
      else some value := by
  induction es generalizing merged with
  | nil => simp at h
  | cons e es ih =>
    obtain ⟨hnew, hes⟩ := List.nodup_cons.1 hes
    rw [List.foldl_cons]
    rcases List.mem_cons.1 h with rfl | h
    · rw [find?_foldl_overlay_of_notMem hnew, find?_overlay_self]
    · have hne : tag ≠ e.1 := by
        rintro rfl
        exact hnew (List.mem_map.2 ⟨_, h, rfl⟩)
      rw [ih hes h, find?_overlay_of_ne hne]

theorem keys_foldl_overlay {es : List (Text × Text)} (hes : (es.map Prod.fst).Nodup)
    (habove : above.keys ⊆ merged.keys) :
    (es.foldl (overlay above) merged).keys =
      merged.keys ++ (es.map Prod.fst).filter (· ∉ merged.keys) := by
  induction es generalizing merged with
  | nil => simp
  | cons e es ih =>
    obtain ⟨hnew, hes⟩ := List.nodup_cons.1 hes
    rw [List.foldl_cons, List.map_cons]
    by_cases hmem : e.1 ∈ merged.keys
    · have hkeys : (overlay above merged e).keys = merged.keys := keys_overlay_of_mem hmem
      rw [ih hes (hkeys ▸ habove), hkeys, List.filter_cons_of_neg (by simpa using hmem)]
    · have hkeys := keys_overlay_of_notMem habove hmem
      have hsub : above.keys ⊆ (overlay above merged e).keys :=
        hkeys ▸ List.Subset.trans habove (List.subset_append_left ..)
      -- the tag that was added does not come again
      have hfilter : (es.map Prod.fst).filter (· ∉ merged.keys ++ [e.1]) =
          (es.map Prod.fst).filter (· ∉ merged.keys) := by
        refine List.filter_congr fun t ht => ?_
        have hne : t ≠ e.1 := fun heq => hnew (heq ▸ ht)
        simp [hne]
      rw [ih hes hsub, hkeys, hfilter, List.filter_cons_of_pos (by simpa using hmem),
        List.append_assoc]
      rfl

/-- **A symbol has the attributes of its section and its own**, in that order; its own prevail,
except for the cross-reference. -/
theorem overlaid_inherit (above own : Attributes) : Overlaid above own (above.inherit own) where
  keys_eq := keys_foldl_overlay own.nodup (List.Subset.refl _)
  find?_above tag h := find?_foldl_overlay_of_notMem (OrderedMap.find?_eq_none.1 h)
  find?_own tag h := by
    rw [inherit_eq]
    cases hown : own.find? tag with
    | none => rw [find?_foldl_overlay_of_notMem (OrderedMap.find?_eq_none.1 hown), h]
    | some w =>
      rw [find?_foldl_overlay_of_mem own.nodup (OrderedMap.find?_eq_some_iff.1 hown), if_neg]
      rintro ⟨-, hd⟩
      exact OrderedMap.find?_eq_none.1 h (isSome_differing?_iff.1 hd).1
  find?_both tag v w hv hw := by
    rw [inherit_eq, find?_foldl_overlay_of_mem own.nodup (OrderedMap.find?_eq_some_iff.1 hw)]
    by_cases htag : tag = Tag.reference
    · rw [if_pos htag]
      by_cases hvw : v = w
      · -- equal values: it makes no difference whose is taken
        rw [if_neg, hvw]
        rintro ⟨-, hd⟩
        exact (isSome_differing?_iff.1 hd).2 (hvw ▸ hv)
      · have hd : above.differing? tag w = some v := differing?_eq_some_iff.2 ⟨hv, hvw⟩
        rw [if_pos ⟨htag, by rw [hd]; rfl⟩, hv]
    · rw [if_neg fun h => htag h.1, if_neg htag]

/-! ## Warnings -/

/-- **There is one warning for each tag with two values.** -/
theorem contradicted_disagreements (command : Text) (loc : Location) (above own : Attributes) :
    Contradicted command loc above own (above.disagreements command loc own) := by
  have hown : ∀ e ∈ own.entries, own.find? e.1 = some e.2 := fun e he =>
    OrderedMap.find?_eq_some_iff.2 he
  unfold Contradicted disagreements
  rw [show own.keys = own.entries.map Prod.fst from rfl]
  revert hown
  generalize own.entries = es
  intro hes
  induction es with
  | nil => exact .nil
  | cons e es ih =>
    obtain ⟨he, hes⟩ := List.forall_mem_cons.1 hes
    have hiff : (above.differing? e.1 e.2).isSome ↔
        e.1 ∈ above.keys ∧ above.find? e.1 ≠ some e.2 := isSome_differing?_iff
    rw [← he] at hiff
    rw [List.map_cons]
    cases hd : above.differing? e.1 e.2 with
    | none =>
      rw [List.filterMap_cons_none (by rw [hd]; rfl), List.filter_cons_of_neg]
      · exact ih hes
      · rw [decide_eq_true_eq, ← hiff, hd]
        exact Bool.false_ne_true
    | some v =>
      rw [List.filterMap_cons_some (by rw [hd]; rfl), List.filter_cons_of_pos]
      · obtain ⟨hv, hne⟩ := differing?_eq_some_iff.1 hd
        exact .cons ⟨v, e.2, hv, he, hne, rfl⟩ (ih hes)
      · rw [decide_eq_true_eq, ← hiff, hd]
        rfl

end TexSymbols.Attributes

import Mathlib.Data.List.Basic
import TexSymbols.Catalogue.Reader
import TexSymbols.Proofs.Attributes.Run

/-!
# The groups of a stream

A definition or a section tag makes a group with the maximal run of tagged blocks directly behind
it.  Every other item stands alone.

* `ItemGroup` — a first item and the run behind it; `ItemGroup.ofItems` — the groups of a list of
  items.
* `flatMap_items_ofItems` — the groups hold every item once and in order.
* `exists_group_of_split`, `exists_rest_of_groups` — from places in the list to groups and back.
* `lastBarrier` — where walking back over tagged blocks ends; `trailsHead` — whether that is a head.
* `trailsHead_of_alone`, `trailsHead_of_run` — it is one exactly for the blocks of a run.
-/

namespace TexSymbols

/-! ## Heads and trailing blocks -/

/-- The item of a block. -/
def Block.item (b : Block) : Item := .ok (.block b)

/-- A tagged block that belongs to the head before it, if there is one. -/
def isTrailing (item : Item) : Bool := continuesRun [Tag.declares] item

/-- A definition or a section tag. -/
def isHead : Item → Bool
  | .ok (.definition ..) => true
  | .ok (.block b) => decide (b.tag = Tag.declares)
  | _ => false

/-- The blocks that a head takes from the items behind it. -/
def runOf (items : List Item) : List Block := leadingBlocks [Tag.declares] items

/-- The items behind that run. -/
def behindRun (items : List Item) : List Item := afterBlocks [Tag.declares] items

theorem isTrailing_item (b : Block) : isTrailing b.item = decide (b.tag ≠ Tag.declares) := by
  simp [isTrailing, Block.item]

theorem isTrailing_eq_true_iff {item : Item} :
    isTrailing item = true ↔ ∃ b : Block, item = b.item ∧ b.tag ≠ Tag.declares := by
  simp [isTrailing, continuesRun_eq_true_iff, Block.item]

theorem isTrailing_of_isHead {item : Item} (h : isHead item = true) : isTrailing item = false := by
  rcases item with e | ⟨d, loc⟩ | b | ⟨line, loc⟩
  · cases h
  · rfl
  · rw [← Block.item, isTrailing_item]
    simpa [isHead] using h
  · cases h

theorem tag_ne_of_mem_runOf {items : List Item} {b : Block} (h : b ∈ runOf items) :
    b.tag ≠ Tag.declares := by
  simpa using tag_notMem_of_mem_leadingBlocks h

theorem run_append_behindRun (items : List Item) :
    (runOf items).map Block.item ++ behindRun items = items :=
  leadingBlocks_append_afterBlocks _ items

/-- A run is maximal: what stands behind it does not go on with it. -/
theorem isTrailing_head_behindRun (items : List Item) :
    ∀ item ∈ (behindRun items).head?, isTrailing item = false := by
  intro item hitem
  have h := List.head?_dropWhile_not (continuesRun [Tag.declares]) items
  rw [show items.dropWhile (continuesRun [Tag.declares]) = behindRun items from rfl,
    Option.mem_def.1 hitem] at h
  simpa [isTrailing] using h

theorem isTrailing_of_mem_map_item {run : List Block} (h : ∀ b ∈ run, b.tag ≠ Tag.declares) :
    ∀ item ∈ run.map Block.item, isTrailing item = true := by
  intro item hitem
  obtain ⟨b, hb, rfl⟩ := List.mem_map.1 hitem
  simpa [isTrailing_item] using h b hb

/-! ## Groups -/

/-- Items that are read together: a first item and a run of blocks, which is empty unless the item
is a head. -/
structure ItemGroup where
  first : Item
  run : List Block
deriving DecidableEq

namespace ItemGroup

/-- The groups of a list of items. -/
def ofItems : List Item → List ItemGroup
  | [] => []
  | item :: rest =>
    if isHead item then ⟨item, runOf rest⟩ :: ofItems (behindRun rest)
    else ⟨item, []⟩ :: ofItems rest
termination_by items => items.length
decreasing_by
  · exact Nat.lt_succ_of_le (length_afterBlocks_le ..)
  · exact Nat.lt_succ_self _

/-- All items of the group. -/
def items (g : ItemGroup) : List Item := g.first :: g.run.map Block.item

/-- Where the group begins. -/
def loc (g : ItemGroup) : Location :=
  match g.first with
  | .ok token => token.loc
  | .error e => e.loc

end ItemGroup

open ItemGroup

theorem ofItems_cons_of_isHead {item : Item} (h : isHead item = true) (rest : List Item) :
    ofItems (item :: rest) = ⟨item, runOf rest⟩ :: ofItems (behindRun rest) := by
  rw [ofItems, if_pos h]

theorem ofItems_cons_of_not_isHead {item : Item} (h : isHead item = false) (rest : List Item) :
    ofItems (item :: rest) = ⟨item, []⟩ :: ofItems rest := by
  rw [ofItems, if_neg (by simp [h])]

/-- **The groups hold every item once and in order.** -/
theorem flatMap_items_ofItems (items : List Item) :
    (ofItems items).flatMap ItemGroup.items = items := by
  fun_induction ofItems items with
  | case1 => rfl
  | case2 item rest h ih =>
    rw [List.flatMap_cons, ih]
    exact congrArg (item :: ·) (run_append_behindRun rest)
  | case3 item rest h ih => rw [List.flatMap_cons, ih]; rfl

theorem mem_of_mem_ofItems {items : List Item} {g : ItemGroup} {item : Item}
    (h : g ∈ ofItems items) (hitem : item ∈ g.items) : item ∈ items := by
  have hmem : item ∈ (ofItems items).flatMap ItemGroup.items := List.mem_flatMap.2 ⟨g, h, hitem⟩
  rwa [flatMap_items_ofItems] at hmem

theorem length_ofItems_le (items : List Item) : (ofItems items).length ≤ items.length := by
  fun_induction ofItems items with
  | case1 => exact Nat.le_refl _
  | case2 item rest h ih =>
    have hle : (behindRun rest).length ≤ rest.length := length_afterBlocks_le ..
    simp only [List.length_cons]
    omega
  | case3 item rest h ih =>
    simp only [List.length_cons]
    omega

/-- Only blocks that may trail a head are in runs, and only behind heads. -/
theorem run_of_mem_ofItems {items : List Item} {g : ItemGroup} (hg : g ∈ ofItems items) {b : Block}
    (hb : b ∈ g.run) :
    isHead g.first = true ∧ b.tag ≠ Tag.declares := by
  fun_induction ofItems items with
  | case1 => simp at hg
  | case2 item rest h ih =>
    rcases List.mem_cons.1 hg with rfl | hg
    · exact ⟨h, tag_ne_of_mem_runOf hb⟩
    · exact ih hg
  | case3 item rest h ih =>
    rcases List.mem_cons.1 hg with rfl | hg
    · simp at hb
    · exact ih hg

/-- Every item of some groups is in one of them. -/
theorem exists_group_of_flatMap_eq {done : List ItemGroup} {before : List Item} {item : Item}
    {after : List Item}
    (h : done.flatMap ItemGroup.items = before ++ item :: after) :
    ∃ done₁ g done₂ before' after', done = done₁ ++ g :: done₂ ∧
      g.items = before' ++ item :: after' ∧
      before = done₁.flatMap ItemGroup.items ++ before' := by
  induction done generalizing before with
  | nil => simp at h
  | cons g done ih =>
    rw [List.flatMap_cons, List.append_eq_append_iff] at h
    rcases h with ⟨before', rfl, hrest⟩ | ⟨inner, hg, hrest⟩
    · obtain ⟨done₁, g', done₂, before'', after', rfl, hg', rfl⟩ := ih hrest
      exact ⟨g :: done₁, g', done₂, before'', after', rfl, hg', by simp⟩
    · cases inner with
      | nil =>
        have hnext : done.flatMap ItemGroup.items = [] ++ item :: after := hrest.symm
        obtain ⟨done₁, g', done₂, before'', after', rfl, hg', hnil⟩ := ih hnext
        refine ⟨g :: done₁, g', done₂, before'', after', rfl, hg', ?_⟩
        rw [List.flatMap_cons, List.append_assoc, ← hnil, hg, List.append_nil, List.append_nil]
      | cons x inner =>
        obtain ⟨rfl, -⟩ := List.cons.inj hrest
        exact ⟨[], g, done, before, inner, rfl, hg, rfl⟩

/-- An item that may not trail a head is the first of its group. -/
theorem exists_group_of_split (before after : List Item) {item : Item}
    (h : isTrailing item = false) :
    ∃ groups g later, ofItems (before ++ item :: after) = groups ++ g :: later ∧ g.first = item ∧
      before = groups.flatMap ItemGroup.items := by
  obtain ⟨groups, g, later, before', after', hgroups, hitems, rfl⟩ :=
    exists_group_of_flatMap_eq (flatMap_items_ofItems (before ++ item :: after))
  refine ⟨groups, g, later, hgroups, ?_⟩
  cases before' with
  | nil => exact ⟨(List.cons.inj hitems).1, by simp⟩
  | cons first before' =>
    -- the other items of a group are in its run
    have hmem : item ∈ g.run.map Block.item := by rw [(List.cons.inj hitems).2]; simp
    have hrun : ∀ b ∈ g.run, b.tag ≠ Tag.declares := fun b hb =>
      (run_of_mem_ofItems (by rw [hgroups]; simp) hb).2
    rw [isTrailing_of_mem_map_item hrun item hmem] at h
    cases h

/-- The items from the first one of a group on. -/
theorem exists_rest_of_groups {items : List Item} {groups later : List ItemGroup} {g : ItemGroup}
    (h : ofItems items = groups ++ g :: later) :
    ∃ rest, items = groups.flatMap ItemGroup.items ++ g.first :: rest ∧
      (isHead g.first = true → g.run = runOf rest) := by
  fun_induction ofItems items generalizing groups with
  | case1 => simp at h
  | case2 item rest hitem ih =>
    cases groups with
    | nil =>
      obtain ⟨rfl, -⟩ := List.cons.inj h
      exact ⟨rest, rfl, fun _ => rfl⟩
    | cons g' groups =>
      obtain ⟨rfl, hlater⟩ := List.cons.inj h
      obtain ⟨rest', hrest, hrun⟩ := ih hlater
      refine ⟨rest', ?_, hrun⟩
      rw [List.flatMap_cons, List.append_assoc, ← hrest]
      exact congrArg (item :: ·) (run_append_behindRun rest).symm
  | case3 item rest hitem ih =>
    cases groups with
    | nil =>
      obtain ⟨rfl, -⟩ := List.cons.inj h
      exact ⟨rest, rfl, fun hhead => absurd hhead hitem⟩
    | cons g' groups =>
      obtain ⟨rfl, hlater⟩ := List.cons.inj h
      obtain ⟨rest', hrest, hrun⟩ := ih hlater
      refine ⟨rest', ?_, hrun⟩
      rw [List.flatMap_cons, List.append_assoc, ← hrest]
      rfl

/-! ## Walking back -/

/-- The last item that is no trailing block. -/
def lastBarrier (before : List Item) : Option Item :=
  before.reverse.find? fun item => !isTrailing item

/-- Whether walking back over trailing blocks leads to a head. -/
def trailsHead (before : List Item) : Bool := (lastBarrier before).any isHead

theorem trailsHead_append_of_trailing {before later : List Item}
    (h : ∀ item ∈ later, isTrailing item = true) :
    trailsHead (before ++ later) = trailsHead before := by
  have hnone : later.reverse.find? (fun item => !isTrailing item) = none := by
    simp only [List.find?_eq_none, List.mem_reverse]
    intro item hitem
    simp [h item hitem]
  simp [trailsHead, lastBarrier, List.find?_append, hnone]

theorem trailsHead_append_singleton {before : List Item} {item : Item}
    (h : isTrailing item = false) :
    trailsHead (before ++ [item]) = isHead item := by
  simp [trailsHead, lastBarrier, h]

/-- From a block within the run of a group, walking back leads to the head of the group. -/
theorem trailsHead_of_run {items : List Item} {g : ItemGroup} (hg : g ∈ ofItems items)
    {run₁ run₂ : List Block}
    {b : Block} (hrun : g.run = run₁ ++ b :: run₂) (before : List Item) :
    trailsHead (before ++ g.first :: run₁.map Block.item) = true := by
  have hhead : isHead g.first = true := (run_of_mem_ofItems hg (b := b) (by simp [hrun])).1
  have htrail : ∀ item ∈ run₁.map Block.item, isTrailing item = true :=
    isTrailing_of_mem_map_item fun c hc => (run_of_mem_ofItems hg (b := c) (by simp [hrun, hc])).2
  rw [← List.singleton_append, ← List.append_assoc, trailsHead_append_of_trailing htrail,
    trailsHead_append_singleton (isTrailing_of_isHead hhead), hhead]

/-- From a trailing block that stands alone, walking back leads to no head.  `before` holds the
items in front of those that are grouped: either it leads to no head itself, or the first item does
not go on with its run. -/
theorem trailsHead_of_alone {items : List Item} {groups later : List ItemGroup} {g : ItemGroup}
    (h : ofItems items = groups ++ g :: later) (hg : isTrailing g.first = true) {before : List Item}
    (hbefore : trailsHead before = true → ∀ item ∈ items.head?, isTrailing item = false) :
    trailsHead (before ++ groups.flatMap ItemGroup.items) = false := by
  fun_induction ofItems items generalizing before groups with
  | case1 => simp at h
  | case2 item rest hitem ih =>
    cases groups with
    | nil =>
      obtain ⟨rfl, -⟩ := List.cons.inj h
      rw [isTrailing_of_isHead hitem] at hg
      cases hg
    | cons g' groups =>
      obtain ⟨rfl, hrest⟩ := List.cons.inj h
      rw [List.flatMap_cons, ← List.append_assoc]
      exact ih hrest fun _ => isTrailing_head_behindRun rest
  | case3 item rest hitem ih =>
    have hone : trailsHead (before ++ [item]) = true →
        isTrailing item = true ∧ trailsHead before = true := by
      intro ht
      cases htrail : isTrailing item with
      | false => rw [trailsHead_append_singleton htrail] at ht; exact absurd ht hitem
      | true => exact ⟨rfl, by rwa [trailsHead_append_of_trailing (by simpa using htrail)] at ht⟩
    cases groups with
    | nil =>
      obtain ⟨rfl, -⟩ := List.cons.inj h
      cases ht : trailsHead before with
      | false => simpa using ht
      | true => rw [hbefore ht item rfl] at hg; cases hg
    | cons g' groups =>
      obtain ⟨rfl, hrest⟩ := List.cons.inj h
      rw [List.flatMap_cons, ← List.append_assoc]
      refine ih hrest fun ht => ?_
      obtain ⟨htrail, ht⟩ := hone ht
      rw [hbefore ht item rfl] at htrail
      cases htrail

end TexSymbols

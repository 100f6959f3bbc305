import Mathlib.Data.List.Induction
import TexSymbols.Attributes.Run
import TexSymbols.Proofs.Lookahead

/-!
# Runs of attributes over plain lists

* `leadingBlocks`, `afterBlocks` — the maximal run of blocks at the beginning of a list of items,
  and the items behind it.
* `attributesOf`, `runWarnings` — what a run gives: its attributes, and the warnings about it.
* `find?_attributesOf` — the value of a tag is that of the last block with the tag.
* `gather_attributes`, `gather_warnings`, `gather_rest` — `gather` reads exactly that run off its
  cursor.
-/

namespace TexSymbols

/-- The block that an item holds, if it holds one. -/
def Item.block? : Item → Option Block
  | .ok (.block b) => some b
  | _ => none

/-- The blocks with which the items begin, up to the first tag in the stop list. -/
def leadingBlocks (stop : List Text) (items : List Item) : List Block :=
  (items.takeWhile (continuesRun stop)).filterMap Item.block?

/-- The items behind the leading blocks. -/
def afterBlocks (stop : List Text) (items : List Item) : List Item :=
  items.dropWhile (continuesRun stop)

/-- The attributes that blocks give on top of others. -/
def attributesFrom (before : Attributes) (run : List Block) : Attributes :=
  run.foldl (fun attributes b => attributes.insert b.tag b.value) before

/-- The attributes that a run of blocks gives. -/
def attributesOf (run : List Block) : Attributes := attributesFrom .empty run

/-- The warnings about blocks that follow a part of a run with the given attributes. -/
def runWarningsFrom (known : List Text) (before : Attributes) : List Block → List Warning
  | [] => []
  | b :: run => b.warnings known before ++ runWarningsFrom known (before.insert b.tag b.value) run

/-- The warnings about a run of blocks. -/
def runWarnings (known : List Text) (run : List Block) : List Warning :=
  runWarningsFrom known .empty run

variable {stop known : List Text}

/-! ## The run and what follows it -/

@[simp] theorem continuesRun_block (b : Block) :
    continuesRun stop (.ok (.block b)) = decide (b.tag ∉ stop) := rfl

theorem continuesRun_eq_true_iff {item : Item} :
    continuesRun stop item = true ↔ ∃ b : Block, item = .ok (.block b) ∧ b.tag ∉ stop := by
  rcases item with e | ⟨d, loc⟩ | b | ⟨line, loc⟩ <;> simp [continuesRun]

theorem leadingBlocks_of_not {item : Item} (h : continuesRun stop item = false) (rest : List Item) :
    leadingBlocks stop (item :: rest) = [] := by
  simp [leadingBlocks, h]

theorem afterBlocks_of_not {item : Item} (h : continuesRun stop item = false) (rest : List Item) :
    afterBlocks stop (item :: rest) = item :: rest := by
  simp [afterBlocks, h]

theorem leadingBlocks_cons {b : Block} (h : b.tag ∉ stop) (rest : List Item) :
    leadingBlocks stop (.ok (.block b) :: rest) = b :: leadingBlocks stop rest := by
  simp [leadingBlocks, h, Item.block?]

theorem afterBlocks_cons {b : Block} (h : b.tag ∉ stop) (rest : List Item) :
    afterBlocks stop (.ok (.block b) :: rest) = afterBlocks stop rest := by
  simp [afterBlocks, h]

theorem length_afterBlocks_le (stop : List Text) (items : List Item) :
    (afterBlocks stop items).length ≤ items.length :=
  (List.dropWhile_suffix _).length_le

/-- The run and the items behind it make up the list. -/
theorem leadingBlocks_append_afterBlocks (stop : List Text) (items : List Item) :
    (leadingBlocks stop items).map (fun b => .ok (.block b)) ++ afterBlocks stop items = items := by
  induction items with
  | nil => rfl
  | cons item rest ih =>
    cases h : continuesRun stop item with
    | false => rw [leadingBlocks_of_not h, afterBlocks_of_not h]; rfl
    | true =>
      obtain ⟨b, rfl, hb⟩ := continuesRun_eq_true_iff.1 h
      rw [leadingBlocks_cons hb, afterBlocks_cons hb, List.map_cons, List.cons_append, ih]

/-- No block of a run has a tag that ends runs. -/
theorem tag_notMem_of_mem_leadingBlocks {items : List Item} {b : Block}
    (h : b ∈ leadingBlocks stop items) :
    b.tag ∉ stop := by
  obtain ⟨item, hitem, hb⟩ := List.mem_filterMap.1 h
  have hall := List.all_eq_true.1 (List.all_takeWhile (p := continuesRun stop) (l := items))
  have hc := hall item hitem
  obtain ⟨b', rfl, hb'⟩ := continuesRun_eq_true_iff.1 hc
  cases hb
  exact hb'

/-! ## The value of a tag -/

/-- The last block of a run with the given tag. -/
def lastTagged (tag : Text) (run : List Block) : Option Block := (run.filter (·.tag = tag)).getLast?

theorem lastTagged_append_singleton (tag : Text) (run : List Block) (b : Block) :
    lastTagged tag (run ++ [b]) = if tag = b.tag then some b else lastTagged tag run := by
  by_cases h : tag = b.tag
  · simp [lastTagged, h]
  · simp [lastTagged, h, Ne.symm h]

/-- A run gives a tag the value of the last block with that tag. -/
theorem find?_attributesOf (tag : Text) (run : List Block) :
    (attributesOf run).find? tag = (lastTagged tag run).map Block.value := by
  induction run using List.reverseRecOn with
  | nil => rfl
  | append_singleton run b ih =>
    have hlast : attributesOf (run ++ [b]) = (attributesOf run).insert b.tag b.value := by
      simp [attributesOf, attributesFrom]
    rw [hlast, OrderedMap.find?_insert, lastTagged_append_singleton]
    split
    · rfl
    · exact ih

/-! ## Gathering -/

/-- Gathering consumes the run, merges it into the attributes read before, and warns about each of
its blocks. -/
theorem gatherFrom_eq (attributes : Attributes) (items : Lookahead Item) :
    (gatherFrom stop known attributes items).attributes =
        attributesFrom attributes (leadingBlocks stop items.toList) ∧
      (gatherFrom stop known attributes items).warnings =
        runWarningsFrom known attributes (leadingBlocks stop items.toList) ∧
      (gatherFrom stop known attributes items).rest.toList = afterBlocks stop items.toList := by
  fun_induction gatherFrom stop known attributes items with
  | case1 attributes items b rest h g ih =>
    obtain ⟨hlist, hb⟩ := Lookahead.toList_of_nextIf_eq_some h
    have hstop : b.tag ∉ stop := by simpa using hb
    rw [hlist, leadingBlocks_cons hstop, afterBlocks_cons hstop]
    obtain ⟨ih₁, ih₂, ih₃⟩ := ih
    exact ⟨ih₁, congrArg (b.warnings known attributes ++ ·) ih₂, ih₃⟩
  | case2 attributes items first rest hnot h =>
    -- an item that was taken would be a block, which the first case treats
    cases first with
    | some item =>
      obtain ⟨b, rfl, -⟩ := continuesRun_eq_true_iff.1 (Lookahead.toList_of_nextIf_eq_some h).2
      exact absurd rfl (hnot b)
    | none =>
      obtain ⟨hrest, hhead⟩ := Lookahead.toList_of_nextIf_eq_none h
      rw [hrest]
      cases hl : items.toList with
      | nil => exact ⟨rfl, rfl, rfl⟩
      | cons item tail =>
        have hc : continuesRun stop item = false := hhead item (by rw [hl]; rfl)
        rw [leadingBlocks_of_not hc, afterBlocks_of_not hc]
        exact ⟨rfl, rfl, rfl⟩

theorem gather_attributes (stop known : List Text) (items : Lookahead Item) :
    (gather stop known items).attributes = attributesOf (leadingBlocks stop items.toList) :=
  (gatherFrom_eq _ _).1

theorem gather_warnings (stop known : List Text) (items : Lookahead Item) :
    (gather stop known items).warnings = runWarnings known (leadingBlocks stop items.toList) :=
  (gatherFrom_eq _ _).2.1

theorem gather_rest (stop known : List Text) (items : Lookahead Item) :
    (gather stop known items).rest.toList = afterBlocks stop items.toList :=
  (gatherFrom_eq _ _).2.2

end TexSymbols

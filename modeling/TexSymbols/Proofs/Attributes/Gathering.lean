import TexSymbols.Proofs.Attributes.Run
import TexSymbols.Proofs.OrderedMap
import TexSymbols.Proofs.Text.Distinct

/-!
# Gathering, block by block

* `keys_attributesOf`, `find?_attributesOf_eq_some_iff` — the tags of a run, where they first
  appear, each with the value of the last block that has it.
* `blockWarnings`, `runWarnings_eq` — the warnings about a run, block by block, by the tags before.
* `collect`, `gatherLoop` — gathering as a loop that adds one block after the other to attributes
  and to a list of warnings; `foldl_collect`, `gatherLoop_eq` — a fold over the run and the loop
  both give what `gather` gives.
* `GatheringAccount`, `gatheringAccount` — what is consumed, what comes next and what was gathered,
  wherever the cursor stands.
-/

namespace TexSymbols

variable {stop known : List Text} {run : List Block} {tag : Text}

/-! ## The tags of a run and their values -/

theorem attributesOf_concat (run : List Block) (b : Block) :
    attributesOf (run ++ [b]) = (attributesOf run).insert b.tag b.value := by
  rw [attributesOf, attributesFrom, List.foldl_append]
  rfl

/-- **The tags of a run stand in the order in which they first appear.** -/
theorem keys_attributesOf (run : List Block) :
    (attributesOf run).keys = Text.distinct (run.map Block.tag) := by
  induction run using List.reverseRecOn with
  | nil => rfl
  | append_singleton run b ih =>
    rw [attributesOf_concat, OrderedMap.keys_insert, ih, List.map_append, List.map_singleton]
    split
    · rename_i hknown
      rw [Text.distinct_concat_of_mem hknown]
    · rename_i hnew
      rw [Text.distinct_concat_of_notMem hnew]

theorem contains_attributesOf_iff :
    (attributesOf run).contains tag = true ↔ tag ∈ run.map Block.tag := by
  rw [OrderedMap.contains_iff, keys_attributesOf, Text.mem_distinct]

/-- The last block with a tag is one that has no block with the tag behind it. -/
theorem lastTagged_eq_some_iff {b : Block} :
    lastTagged tag run = some b ↔
      ∃ before after, run = before ++ b :: after ∧ b.tag = tag ∧
        ∀ later ∈ after, later.tag ≠ tag := by
  rw [lastTagged, List.getLast?_eq_some_iff]
  constructor
  · rintro ⟨earlier, hfilter⟩
    obtain ⟨front, back, rfl, -, hback⟩ := List.filter_eq_append_iff.1 hfilter
    obtain ⟨passed, after, rfl, -, htag, hafter⟩ := List.filter_eq_cons_iff.1 hback
    refine ⟨front ++ passed, after, by rw [List.append_assoc], of_decide_eq_true htag, ?_⟩
    intro later hlater heq
    exact List.filter_eq_nil_iff.1 hafter later hlater (decide_eq_true heq)
  · rintro ⟨before, after, rfl, htag, hafter⟩
    have hnone : after.filter (·.tag = tag) = [] := by
      rw [List.filter_eq_nil_iff]
      intro later hlater heq
      exact hafter later hlater (of_decide_eq_true heq)
    refine ⟨before.filter (·.tag = tag), ?_⟩
    rw [List.filter_append, List.filter_cons, if_pos (decide_eq_true htag), hnone]

/-- **A tag has the value of the last block of the run that gives it.** -/
theorem find?_attributesOf_eq_some_iff {value : Text} :
    (attributesOf run).find? tag = some value ↔
      ∃ before b after, run = before ++ b :: after ∧ b.tag = tag ∧
        (∀ later ∈ after, later.tag ≠ tag) ∧ b.value = value := by
  rw [find?_attributesOf, Option.map_eq_some_iff]
  constructor
  · rintro ⟨b, hlast, hvalue⟩
    obtain ⟨before, after, hrun, htag, hafter⟩ := lastTagged_eq_some_iff.1 hlast
    exact ⟨before, b, after, hrun, htag, hafter, hvalue⟩
  · rintro ⟨before, b, after, hrun, htag, hafter, hvalue⟩
    exact ⟨b, lastTagged_eq_some_iff.2 ⟨before, after, hrun, htag, hafter⟩, hvalue⟩

/-! ## The warnings about a run -/

/-- The warnings about a block, given the tags before it in the run: that its tag is not in the
vocabulary, and then that it was given before. -/
def blockWarnings (known earlier : List Text) (b : Block) : List Warning :=
  (if b.tag ∈ known then [] else [.unknownTag b.tag b.loc]) ++
    (if b.tag ∈ earlier then [.tagOverwritten b.tag b.loc] else [])

theorem warnings_attributesOf (known : List Text) (before : List Block) (b : Block) :
    b.warnings known (attributesOf before) = blockWarnings known (before.map Block.tag) b := by
  simp only [Block.warnings, blockWarnings, contains_attributesOf_iff]

/-- The warnings about the blocks from some place of a run on. -/
theorem runWarningsFrom_eq (known : List Text) (before run : List Block) :
    runWarningsFrom known (attributesOf before) run =
      (run.zipIdx before.length).flatMap fun e =>
        blockWarnings known (((before ++ run).take e.2).map Block.tag) e.1 := by
  induction run generalizing before with
  | nil => rfl
  | cons b run ih =>
    -- the block itself is before all later ones
    have hlater := ih (before ++ [b])
    rw [List.length_append, List.length_singleton, List.append_assoc, List.singleton_append]
      at hlater
    rw [runWarningsFrom, ← attributesOf_concat, hlater, warnings_attributesOf, List.zipIdx_cons,
      List.flatMap_cons, List.take_left]

/-- **The warnings about a run, block by block.** -/
theorem runWarnings_eq (known : List Text) (run : List Block) :
    runWarnings known run =
      run.zipIdx.flatMap fun e => blockWarnings known ((run.take e.2).map Block.tag) e.1 :=
  runWarningsFrom_eq known [] run

/-! ## The loop -/

/-- Attributes and warnings with what one more block gives. -/
def collect (known : List Text) (gathered : Attributes × List Warning) (b : Block) :
    Attributes × List Warning :=
  (gathered.1.insert b.tag b.value, gathered.2 ++ b.warnings known gathered.1)

/-- Consumes items as long as they go on with the run, and collects what they give. -/
def gatherLoop (stop known : List Text) (gathered : Attributes × List Warning)
    (items : Lookahead Item) : (Attributes × List Warning) × Lookahead Item :=
  match _h : items.nextIf (continuesRun stop) with
  | (some (.ok (.block b)), rest) => gatherLoop stop known (collect known gathered b) rest
  | (_, rest) => (gathered, rest)
termination_by items.toList.length
decreasing_by
  have := items.length_nextIf_lt (continuesRun stop) (by rw [_h]; rfl)
  rwa [_h] at this

theorem foldl_collect (known : List Text) (run : List Block) (before : Attributes)
    (warnings : List Warning) :
    run.foldl (collect known) (before, warnings) =
      (attributesFrom before run, warnings ++ runWarningsFrom known before run) := by
  induction run generalizing before warnings with
  | nil => rw [runWarningsFrom, List.append_nil]; rfl
  | cons b run ih =>
    rw [List.foldl_cons, collect, ih, runWarningsFrom, List.append_assoc]
    rfl

/-- A block that goes on with the run is the first of what is gathered. -/
theorem gatherFrom_of_block {attributes : Attributes} {items rest : Lookahead Item} {b : Block}
    (h : items.nextIf (continuesRun stop) = (some (.ok (.block b)), rest)) :
    gatherFrom stop known attributes items =
      let later := gatherFrom stop known (attributes.insert b.tag b.value) rest
      ⟨later.attributes, b.warnings known attributes ++ later.warnings, later.rest⟩ := by
  rw [gatherFrom]
  split
  · rename_i b' rest' h'
    cases h.symm.trans h'
    rfl
  · rename_i hnot h'
    cases h.symm.trans h'
    exact absurd rfl (hnot b)

/-- Anything else ends it. -/
theorem gatherFrom_of_not {attributes : Attributes} {items rest : Lookahead Item}
    {first : Option Item} (h : items.nextIf (continuesRun stop) = (first, rest))
    (hnot : ∀ b, first ≠ some (.ok (.block b))) :
    gatherFrom stop known attributes items = ⟨attributes, [], rest⟩ := by
  rw [gatherFrom]
  split
  · rename_i b rest' h'
    cases h.symm.trans h'
    exact absurd rfl (hnot b)
  · rename_i h'
    cases h.symm.trans h'
    rfl

/-- **The loop gives what gathering gives**, behind the warnings that there were before. -/
theorem gatherLoop_eq (gathered : Attributes × List Warning) (items : Lookahead Item) :
    gatherLoop stop known gathered items =
      (((gatherFrom stop known gathered.1 items).attributes,
          gathered.2 ++ (gatherFrom stop known gathered.1 items).warnings),
        (gatherFrom stop known gathered.1 items).rest) := by
  fun_induction gatherLoop stop known gathered items with
  | case1 gathered items b rest h ih =>
    rw [ih, gatherFrom_of_block h, collect, List.append_assoc]
  | case2 gathered items first rest hnot h =>
    rw [gatherFrom_of_not h fun b hb => hnot b hb, List.append_nil]

/-! ## All at once -/

/-- What is behind a run begins with no block that goes on with it. -/
theorem tag_mem_of_head?_afterBlocks {items : List Item} {b : Block}
    (h : (afterBlocks stop items).head? = some (.ok (.block b))) : b.tag ∈ stop := by
  have hends := List.head?_dropWhile_not (continuesRun stop) items
  rw [← afterBlocks, h] at hends
  simpa using hends

/-- The item right behind a run is the first of what the run leaves. -/
theorem getElem?_length_leadingBlocks (stop : List Text) (items : List Item) :
    items[(leadingBlocks stop items).length]? = (afterBlocks stop items).head? := by
  have hsplit := leadingBlocks_append_afterBlocks stop items
  generalize leadingBlocks stop items = run at hsplit ⊢
  generalize afterBlocks stop items = rest at hsplit ⊢
  subst hsplit
  rw [List.getElem?_append_right (by simp), List.length_map, Nat.sub_self, List.head?_eq_getElem?]

/-- What gathering consumes, leaves and gives. -/
structure GatheringAccount (stop known : List Text) (items : Lookahead Item) : Prop where
  /-- What was not consumed before begins with the run and goes on with what is left. -/
  run_append : (leadingBlocks stop items.toList).map (fun b => .ok (.block b)) ++
    (gather stop known items).rest.toList = items.toList
  /-- No tag of the run is in the stop list. -/
  tag_notMem : ∀ b ∈ leadingBlocks stop items.toList, b.tag ∉ stop
  /-- The run is maximal: a block behind it has a tag in the stop list. -/
  tag_mem : ∀ b, (gather stop known items).rest.toList.head? = some (.ok (.block b)) → b.tag ∈ stop
  /-- Whatever item stands behind the run, also an error, it comes next. -/
  next_eq : (gather stop known items).rest.next.1 =
    items.toList[(leadingBlocks stop items.toList).length]?
  /-- The tags are those of the run, in the order in which they first appear. -/
  keys_eq : (gather stop known items).attributes.keys =
    Text.distinct ((leadingBlocks stop items.toList).map Block.tag)
  /-- The value of a tag is in the lines of the last block that has it. -/
  find?_iff : ∀ tag value, (gather stop known items).attributes.find? tag = some value ↔
    ∃ before b after, leadingBlocks stop items.toList = before ++ b :: after ∧ b.tag = tag ∧
      (∀ later ∈ after, later.tag ≠ tag) ∧ Text.trim (Text.join " " b.lines) = value
  /-- The warnings are, block by block, those about its tag and the tags before it. -/
  warnings_eq : (gather stop known items).warnings =
    (leadingBlocks stop items.toList).zipIdx.flatMap fun e =>
      blockWarnings known (((leadingBlocks stop items.toList).take e.2).map Block.tag) e.1
  /-- They are added, in a fold over the run, to any warnings that there were before. -/
  fold_eq : ∀ before : List Warning,
    (leadingBlocks stop items.toList).foldl (collect known) (.empty, before) =
      ((gather stop known items).attributes, before ++ (gather stop known items).warnings)
  /-- The fold is what a loop does that consumes one block after the other. -/
  loop_eq : ∀ before : List Warning, gatherLoop stop known (.empty, before) items =
    (((gather stop known items).attributes, before ++ (gather stop known items).warnings),
      (gather stop known items).rest)

/-- **Gathering folds the maximal run of blocks that comes next**, whatever was looked at before. -/
theorem gatheringAccount (stop known : List Text) (items : Lookahead Item) :
    GatheringAccount stop known items := by
  refine
    { run_append := by rw [gather_rest, leadingBlocks_append_afterBlocks]
      tag_notMem := fun b hb => tag_notMem_of_mem_leadingBlocks hb
      tag_mem := fun b hb => ?_
      next_eq := ?_
      keys_eq := by rw [gather_attributes, keys_attributesOf]
      find?_iff := fun tag value => ?_
      warnings_eq := by rw [gather_warnings, runWarnings_eq]
      fold_eq := fun before => ?_
      loop_eq := fun before => gatherLoop_eq _ items }
  · rw [gather_rest] at hb
    exact tag_mem_of_head?_afterBlocks hb
  · rw [(Lookahead.next_eq _).1, gather_rest, getElem?_length_leadingBlocks]
  · rw [gather_attributes]
    exact find?_attributesOf_eq_some_iff
  · rw [foldl_collect, gather_attributes, gather_warnings]
    rfl

end TexSymbols

import TexSymbols.Proofs.Reader.Outcome
import TexSymbols.Proofs.Reader.Pulls

/-!
# Pulling a reader to its end

* `ItemGroup.Floats`, `ItemGroup.Trails` — the two places that a tagged block can have in groups.
* `StandsAlone` — walking back from a place leads to no head.
* `Reader.Refinement` — what pulling to the end has to give, in terms of the groups;
  `Reader.take_refines_groups` — it does for every stream and every catalogue.
-/

namespace TexSymbols

open ItemGroup

/-! ## The place of a block -/

/-- Walking back over trailing blocks leads to an ordinary line or to the beginning. -/
def StandsAlone (before : List Item) : Prop :=
  ∀ item ∈ lastBarrier before, ∃ line loc, item = .ok (.passthrough line loc)

namespace ItemGroup

variable {done rest : List ItemGroup} {before : List Item} {b : Block}

/-- The item behind `before` is a group of its own. -/
def Floats (done : List ItemGroup) (before : List Item) (b : Block) : Prop :=
  ∃ done₁ done₂, done = done₁ ++ ⟨b.item, []⟩ :: done₂ ∧ before = done₁.flatMap items

/-- The item behind `before` is in the run of a head. -/
def Trails (done : List ItemGroup) (before : List Item) (b : Block) : Prop :=
  ∃ done₁ g done₂ run₁ run₂, done = done₁ ++ g :: done₂ ∧ isHead g.first = true ∧
    g.run = run₁ ++ b :: run₂ ∧
    before = done₁.flatMap items ++ g.first :: run₁.map Block.item

/-- A block that is no section tag has one of the two places. -/
theorem floats_or_trails {all after : List Item} (hgroups : ofItems all = done ++ rest)
    (htag : b.tag ≠ Tag.declares) (hplace : done.flatMap items = before ++ b.item :: after) :
    Floats done before b ∨ Trails done before b := by
  obtain ⟨done₁, g, done₂, before', after', rfl, hg, rfl⟩ := exists_group_of_flatMap_eq hplace
  have hmem : g ∈ ofItems all := by simp [hgroups]
  cases before' with
  | nil =>
    obtain ⟨first, run⟩ := g
    obtain ⟨rfl, -⟩ := List.cons.inj hg
    have hrun : run = [] := List.eq_nil_iff_forall_not_mem.2 fun b' hb' => by
      have hhead := (run_of_mem_ofItems hmem hb').1
      simp [isHead, Block.item, htag] at hhead
    exact .inl ⟨done₁, done₂, by rw [hrun], by simp⟩
  | cons item before' =>
    obtain ⟨rfl, hrun⟩ := List.cons.inj hg
    obtain ⟨run₁, run', hrun, rfl, htail⟩ := List.map_eq_append_iff.1 hrun
    obtain ⟨b', run₂, rfl, hb, -⟩ := List.map_eq_cons_iff.1 htail
    cases hb
    have hhead := (run_of_mem_ofItems hmem (b := b) (by simp [hrun])).1
    exact .inr ⟨done₁, g, done₂, run₁, run₂, rfl, hhead, hrun, rfl⟩

end ItemGroup

namespace Reads

variable {p p' : Progress} {done : List ItemGroup}

/-- No group that was read is an error of the stream. -/
theorem first_ne_error (h : Reads p done p') : ∀ g ∈ done, ∀ e, g.first ≠ .error e := by
  induction h with
  | nil => simp
  | cons hg _ ih =>
    intro g' hg' e he
    rcases List.mem_cons.1 hg' with rfl | hg'
    · simp [ItemGroup.read, he] at hg
    · exact ih g' hg' e he

theorem item_ne_error (h : Reads p done p') :
    ∀ item ∈ done.flatMap items, ∀ e, item ≠ .error e := by
  intro item hitem e he
  obtain ⟨g, hg, hmem⟩ := List.mem_flatMap.1 hitem
  rcases List.mem_cons.1 hmem with rfl | hrun
  · exact h.first_ne_error g hg e he
  · obtain ⟨b, -, rfl⟩ := List.mem_map.1 hrun
    cases he

/-- Before the first failing group, walking back ends at a head unless it ends at an ordinary line
or the beginning. -/
theorem standsAlone_iff (h : Reads p done p') {before : List Item}
    (hbefore : before ⊆ done.flatMap items) :
    StandsAlone before ↔ trailsHead before = false := by
  unfold StandsAlone trailsHead
  cases hlast : lastBarrier before with
  | none => simp
  | some item =>
    have hmem : item ∈ before := by simpa using List.mem_of_find?_eq_some hlast
    have hbarrier : isTrailing item = false := by simpa using List.find?_some hlast
    rcases item with e | ⟨d, loc⟩ | b | ⟨line, loc⟩
    · exact absurd rfl (h.item_ne_error _ (hbefore hmem) e)
    · simp [isHead]
    · rw [← Block.item, isTrailing_item] at hbarrier
      simpa [isHead, Block.item] using hbarrier
    · simp [isHead]

end Reads

namespace Reader

variable {c : Catalogue} {items : List Item}

/-- Reading the items into `c` gives `t`: the groups `done` were read, and the groups `rest` were
not. -/
structure Refinement (c : Catalogue) (items : List Item) (done rest : List ItemGroup)
    (t : Reading) : Prop where
  groups_eq : ofItems items = done ++ rest
  /-- Every head and every ordinary line gives one event, in the order of the stream, and nothing
  else gives one. -/
  events_eq : t.events = done.filterMap event?
  /-- Reading ends with the stream or with the first group that fails. -/
  ends : t.error = none ∧ rest = [] ∧ Reads ⟨c, none⟩ done t.reader.progress ∨
    ∃ g later p e, rest = g :: later ∧ Reads ⟨c, none⟩ done p ∧
      g.read p = (some e, t.reader.progress) ∧
      t.error = some e ∧ e.loc = g.loc
  /-- Nothing comes after that. -/
  exhausted : t.reader.next = (none, t.reader)
  /-- The catalogue is what the groups say. -/
  outcome : Reads.Outcome c done t.reader.progress
  /-- A block that is no section tag belongs to the head to which walking back leads, or stands
  alone. -/
  place : ∀ before b after, done.flatMap ItemGroup.items = before ++ Block.item b :: after →
    b.tag ≠ Tag.declares →
    (Floats done before b ↔ StandsAlone before) ∧ (Trails done before b ↔ ¬ StandsAlone before)

/-- A block stands alone exactly where walking back leads to no head. -/
theorem place_iff {p p' : Progress} {done rest : List ItemGroup} (hreads : Reads p done p')
    (hgroups : ofItems items = done ++ rest) {before after : List Item} {b : Block}
    (hplace : done.flatMap ItemGroup.items = before ++ b.item :: after)
    (htag : b.tag ≠ Tag.declares) :
    (Floats done before b ↔ StandsAlone before) ∧
      (Trails done before b ↔ ¬ StandsAlone before) := by
  have hstand : StandsAlone before ↔ trailsHead before = false :=
    hreads.standsAlone_iff (by rw [hplace]; exact List.subset_append_left ..)
  have hfloats : Floats done before b → StandsAlone before := by
    rintro ⟨done₁, done₂, hdone, hbefore⟩
    rw [hdone, List.append_assoc, List.cons_append] at hgroups
    have htrailing : isTrailing b.item = true := by simpa [isTrailing_item] using htag
    have hwalk : trailsHead ([] ++ done₁.flatMap ItemGroup.items) = false :=
      trailsHead_of_alone hgroups htrailing fun h => by simp [trailsHead, lastBarrier] at h
    rwa [hstand, hbefore]
  have htrails : Trails done before b → ¬ StandsAlone before := by
    rintro ⟨done₁, g, done₂, run₁, run₂, hdone, -, hrun, hbefore⟩
    have hmem : g ∈ ofItems items := by simp [hgroups, hdone]
    rw [hstand, Bool.not_eq_false, hbefore]
    exact trailsHead_of_run hmem hrun _
  refine ⟨⟨hfloats, fun h => ?_⟩, ⟨htrails, fun h => ?_⟩⟩
  · exact (floats_or_trails hgroups htag hplace).resolve_right fun h' => htrails h' h
  · exact (floats_or_trails hgroups htag hplace).resolve_left fun h' => h (hfloats h')

/-- **Pulling a reader to its end reads the groups of its stream.** -/
theorem take_refines_groups (c : Catalogue) (items : List Item) :
    ∃ done rest, Refinement c items done rest ((start c items).take (items.length + 1)) := by
  have htaken := taken_take (items.length + 1) (r := start c items) rfl
  generalize (start c items).take (items.length + 1) = t at htaken
  cases htaken with
  | @stopped done hgroups hreads hevents herror _ hend =>
    rw [groups_start] at hgroups
    have hrest : t.reader.groups = [] := by
      refine hend.resolve_right fun hn => ?_
      -- there is at most one event for each item
      have hle := length_ofItems_le items
      have hevent : t.events.length ≤ done.length := by
        rw [hevents]; exact List.length_filterMap_le ..
      rw [hgroups, List.length_append] at hle
      omega
    rw [hrest] at hgroups
    refine ⟨done, [], hgroups, hevents, .inl ⟨herror, rfl, hreads⟩, next_of_finished (.inr hrest),
      hreads.outcome, ?_⟩
    intro before b after hplace htag
    exact place_iff hreads hgroups hplace htag
  | @failed done later g p e hgroups hreads hevents hg herror hfailed =>
    rw [groups_start] at hgroups
    obtain ⟨hloc, hwarn⟩ := read_eq_some hg
    refine ⟨done, g :: later, hgroups, hevents,
      .inr ⟨g, later, p, e, rfl, hreads, hg, herror, hloc⟩,
      next_of_finished (.inl hfailed), ?_, ?_⟩
    · have houtcome : Reads.Outcome c done p := hreads.outcome
      rcases hwarn with heq | heq <;> rw [heq]
      · exact houtcome
      · exact houtcome.warn (floating?_runWarnings ..)
    · intro before b after hplace htag
      exact place_iff hreads hgroups hplace htag

end Reader

end TexSymbols

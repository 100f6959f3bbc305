import Mathlib.Logic.Relation
import TexSymbols.Proofs.Catalogue.Runs

/-!
# Catalogues only grow

* `OrderedMap.Extends` — a map keeps its keys at their places, with values that are related to the
  earlier ones.
* `Section.Keeps`, `Section.KeepsSubs` — what may become of a section.
* `Catalogue.Extends` — nothing was taken away, moved or changed, apart from that.
* `Catalogue.Change` — one operation: a pull, a reservation, or linking.
* `Change.extends`, `extends_of_changes` — what one operation keeps, and any number of them.
* `Catalogue.appendOnly` — both, and that a reserved name is declared once at most.
-/

namespace TexSymbols

/-! ## Maps -/

namespace OrderedMap

variable {κ ν : Type} {R S : ν → ν → Prop} {m m' m'' : OrderedMap κ ν}

/-- Every key of `m` stands at the same place in `m'`, with a value that `R` allows. -/
def Extends (R : ν → ν → Prop) (m m' : OrderedMap κ ν) : Prop :=
  ∀ (i : Nat) (k : κ) (v : ν), m.entries[i]? = some (k, v) →
    ∃ w, m'.entries[i]? = some (k, w) ∧ R v w

theorem Extends.mono (hRS : ∀ v w, R v w → S v w) (h : m.Extends R m') : m.Extends S m' := by
  intro i k v hv
  obtain ⟨w, hw, hR⟩ := h i k v hv
  exact ⟨w, hw, hRS v w hR⟩

theorem Extends.refl [Std.Refl R] (m : OrderedMap κ ν) : m.Extends R m :=
  fun _ _ v hv => ⟨v, hv, Std.Refl.refl v⟩

theorem Extends.trans [IsTrans ν R] (h : m.Extends R m') (h' : m'.Extends R m'') :
    m.Extends R m'' := by
  intro i k u hu
  obtain ⟨v, hv, huv⟩ := h i k u hu
  obtain ⟨w, hw, hvw⟩ := h' i k v hv
  exact ⟨w, hw, IsTrans.trans u v w huv hvw⟩

theorem extends_mapValues {f : κ → ν → ν} (hf : ∀ k v, R v (f k v)) (m : OrderedMap κ ν) :
    m.Extends R (m.mapValues f) := by
  intro i k v hv
  exact ⟨f k v, by rw [entries_mapValues, List.getElem?_map, hv]; rfl, hf k v⟩

variable [DecidableEq κ]

theorem extends_insert [Std.Refl R] {k : κ} (hk : k ∉ m.keys) (v : ν) :
    m.Extends R (m.insert k v) := by
  intro i j w hw
  have hi : i < m.entries.length := (List.getElem?_eq_some_iff.1 hw).1
  exact ⟨w, by rw [entries_insert_of_notMem hk, List.getElem?_append_left hi, hw],
    Std.Refl.refl w⟩

theorem Extends.find? (h : m.Extends R m') {k : κ} {v : ν} (hv : m.find? k = some v) :
    ∃ w, m'.find? k = some w ∧ R v w := by
  obtain ⟨i, hi⟩ := List.mem_iff_getElem?.1 (find?_eq_some_iff.1 hv)
  obtain ⟨w, hw, hR⟩ := h i k v hi
  exact ⟨w, find?_eq_some_iff.2 (List.mem_of_getElem? hw), hR⟩

end OrderedMap

/-! ## Sections -/

namespace Section

/-- What stays of a section, whatever is done to its catalogue. -/
structure Keeps (o o' : Section) : Prop where
  name_eq : o'.name = o.name
  parent_eq : o'.parent = o.parent
  order_eq : o'.order = o.order
  /-- A declared section keeps its description, its location and its attributes. -/
  declaration_eq : o.isReserved = false → o'.declaration = o.declaration
  /-- Symbols are only added at the end. -/
  symbols_prefix : o.symbols <+: o'.symbols

/-- What stays unless the hierarchy is linked. -/
structure KeepsSubs (o o' : Section) : Prop extends o.Keeps o' where
  subs_eq : o'.subs = o.subs

theorem Keeps.refl (o : Section) : o.Keeps o :=
  ⟨rfl, rfl, rfl, fun _ => rfl, List.prefix_rfl⟩

theorem Keeps.trans {o₁ o₂ o₃ : Section} (h : o₁.Keeps o₂) (h' : o₂.Keeps o₃) : o₁.Keeps o₃ where
  name_eq := h'.name_eq.trans h.name_eq
  parent_eq := h'.parent_eq.trans h.parent_eq
  order_eq := h'.order_eq.trans h.order_eq
  declaration_eq ho := by
    have heq := h.declaration_eq ho
    have ho' : o₂.isReserved = false := by rwa [isReserved, heq]
    exact (h'.declaration_eq ho').trans heq
  symbols_prefix := h.symbols_prefix.trans h'.symbols_prefix

instance : Std.Refl Keeps := ⟨Keeps.refl⟩

instance : Std.Refl KeepsSubs := ⟨fun o => ⟨Keeps.refl o, rfl⟩⟩

instance : IsTrans Section Keeps := ⟨fun _ _ _ h h' => h.trans h'⟩

instance : IsTrans Section KeepsSubs :=
  ⟨fun _ _ _ h h' => ⟨h.toKeeps.trans h'.toKeeps, h'.subs_eq.trans h.subs_eq⟩⟩

end Section

/-! ## Catalogues -/

namespace Catalogue

variable {R S : Section → Section → Prop} {c c' c'' : Catalogue} {name : Text}

/-- Symbols and warnings are only added at the end; so are sections, and of those that were there
stays what `R` says. -/
structure Extends (R : Section → Section → Prop) (c c' : Catalogue) : Prop where
  symbols_prefix : c.symbols.entries <+: c'.symbols.entries
  sections_extend : c.sections.Extends R c'.sections
  warnings_prefix : c.warnings <+: c'.warnings

theorem Extends.mono (hRS : ∀ o o', R o o' → S o o') (h : c.Extends R c') : c.Extends S c' :=
  { h with sections_extend := h.sections_extend.mono hRS }

theorem Extends.refl [Std.Refl R] (c : Catalogue) : c.Extends R c :=
  ⟨List.prefix_rfl, .refl _, List.prefix_rfl⟩

theorem Extends.trans [IsTrans Section R] (h : c.Extends R c') (h' : c'.Extends R c'') :
    c.Extends R c'' where
  symbols_prefix := h.symbols_prefix.trans h'.symbols_prefix
  sections_extend := h.sections_extend.trans h'.sections_extend
  warnings_prefix := h.warnings_prefix.trans h'.warnings_prefix

theorem Extends.toKeeps (h : c.Extends Section.KeepsSubs c') : c.Extends Section.Keeps c' :=
  h.mono fun _ _ => Section.KeepsSubs.toKeeps

theorem Extends.declaration? (h : c.Extends Section.Keeps c') {d : Declaration}
    (hd : c.declaration? name = some d) : c'.declaration? name = some d := by
  obtain ⟨o, ho, hdeclared⟩ := Option.bind_eq_some_iff.1 hd
  obtain ⟨o', ho', hkeeps⟩ := h.sections_extend.find? ho
  have hreserved : o.isReserved = false := by rw [Section.isReserved, hdeclared]; rfl
  rw [Catalogue.declaration?, ho', Option.bind_some, hkeeps.declaration_eq hreserved, hdeclared]

theorem Extends.declares (h : c.Extends Section.Keeps c') (hname : c.Declares name) :
    c'.Declares name := by
  obtain ⟨d, hd⟩ := Option.isSome_iff_exists.1 hname
  exact Option.isSome_iff_exists.2 ⟨d, h.declaration? hd⟩

/-! ## The operations that add to a catalogue -/

theorem extends_warn (c : Catalogue) (ws : List Warning) :
    c.Extends Section.KeepsSubs (c.warn ws) :=
  ⟨List.prefix_rfl, .refl _, List.prefix_append ..⟩

theorem extends_addSection (hname : name ∉ c.sections.keys) (d : Option Declaration) :
    c.Extends Section.KeepsSubs (c.addSection name d) :=
  ⟨List.prefix_rfl, OrderedMap.extends_insert hname _, List.prefix_rfl⟩

theorem extends_reserve (c : Catalogue) (name : Text) :
    c.Extends Section.KeepsSubs (c.reserve name) := by
  unfold reserve
  split
  · exact .refl c
  · rename_i hname
    exact extends_addSection (by simpa using hname) none

/-- Completing a reservation changes a section that is not declared. -/
theorem extends_complete {o : Section} (ho : c.sections.find? name = some o)
    (hreserved : o.declaration = none) (d : Declaration) :
    c.Extends Section.KeepsSubs (c.complete name d) := by
  refine ⟨List.prefix_rfl, ?_, List.prefix_rfl⟩
  intro i k o₁ ho₁
  refine ⟨if k = name then { o₁ with declaration := some d } else o₁, ?_, ?_⟩
  · rw [complete, OrderedMap.entries_modify, List.getElem?_map, ho₁]
    rfl
  · by_cases hk : k = name
    · subst hk
      have hmem := OrderedMap.find?_eq_some_iff.2 (List.mem_of_getElem? ho₁)
      obtain rfl : o = o₁ := Option.some.inj (ho.symm.trans hmem)
      rw [if_pos rfl]
      refine ⟨⟨rfl, rfl, rfl, fun h => ?_, List.prefix_rfl⟩, rfl⟩
      rw [Section.isReserved, hreserved] at h
      cases h
    · rw [if_neg hk]
      exact Std.Refl.refl o₁

theorem extends_declare {d : Declaration} (h : c.declare name d = .ok c') :
    c.Extends Section.KeepsSubs c' := by
  obtain ⟨-, ⟨hname, rfl⟩ | ⟨⟨o, ho, hreserved⟩, rfl⟩⟩ := declare_eq_ok h
  · exact extends_addSection hname _
  · exact extends_complete ho hreserved d

theorem extends_register {s : Symbol} (hnew : c.symbols.find? s.command = none) :
    c.Extends Section.KeepsSubs (c.register s) := by
  refine ⟨⟨[_], (OrderedMap.entries_insert_of_notMem (OrderedMap.find?_eq_none.1 hnew) s).symm⟩,
    ?_, List.prefix_rfl⟩
  apply OrderedMap.extends_mapValues
  intro k o
  by_cases hk : k = s.owner
  · rw [if_pos hk]
    exact ⟨⟨rfl, rfl, rfl, fun _ => rfl, List.prefix_append ..⟩, rfl⟩
  · rw [if_neg hk]
    exact Std.Refl.refl o

theorem extends_link (c : Catalogue) : c.Extends Section.Keeps c.link :=
  ⟨List.prefix_rfl,
    OrderedMap.extends_mapValues (fun _ _ => ⟨rfl, rfl, rfl, fun _ => rfl, List.prefix_rfl⟩) _,
    List.prefix_rfl⟩

/-! ## Pulls -/

theorem extends_step {p p' : Progress} {g : ItemGroup} (h : g.Step p p') :
    p.catalogue.Extends Section.KeepsSubs p'.catalogue := by
  cases h with
  | passthrough => exact .refl _
  | floating => exact extends_warn ..
  | declared _ _ _ hdec =>
    exact (extends_warn ..).trans (extends_declare hdec)
  | defined _ _ _ hnew =>
    refine (extends_warn _ _).trans ((extends_warn _ _).trans (extends_register ?_))
    exact hnew

theorem extends_pull {r r' : Reader} {outcome : Option (Except ReadError Event)}
    (h : Reader.Pull r outcome r') : r.catalogue.Extends Section.KeepsSubs r'.catalogue := by
  induction h with
  | finished => exact .refl _
  | skipped _ hread _ _ ih =>
    have hstep := extends_step (ItemGroup.step_of_read hread)
    exact hstep.trans ih
  | event _ hread => exact extends_step (ItemGroup.step_of_read hread)
  | @failed r r' g _ _ _ hread =>
    obtain ⟨-, heq | heq⟩ := ItemGroup.read_eq_some hread
    · rw [← Reader.progress_catalogue, ← Reader.progress_catalogue, heq]
      exact .refl _
    · rw [← Reader.progress_catalogue, ← Reader.progress_catalogue, heq]
      exact extends_warn ..

/-- **A pull only adds to the catalogue**, whatever it comes to. -/
theorem extends_next (r : Reader) : r.catalogue.Extends Section.KeepsSubs r.next.2.catalogue := by
  cases hr : r.failed with
  | true =>
    rw [Reader.next_of_finished (.inl hr)]
    exact .refl _
  | false => exact extends_pull (Reader.pull_next hr)

/-! ## Operations -/

/-- What one operation makes of a catalogue. -/
inductive Change (c : Catalogue) : Catalogue → Prop
  /-- A pull of a reader, whatever it reads and wherever it stands. -/
  | pull (r : Reader) : r.catalogue = c → Change c r.next.2.catalogue
  | reserve (name : Text) : Change c (c.reserve name)
  | link : Change c c.link

/-- **Every operation only adds to the catalogue.** -/
theorem Change.extends (h : Change c c') : c.Extends Section.Keeps c' := by
  cases h with
  | pull r hr => exact hr ▸ (extends_next r).toKeeps
  | reserve name => exact (extends_reserve c name).toKeeps
  | link => exact extends_link c

/-- **So does any number of operations.** -/
theorem extends_of_changes (h : Relation.ReflTransGen Change c c') :
    c.Extends Section.Keeps c' := by
  induction h with
  | refl => exact .refl c
  | tail _ hchange ih => exact ih.trans hchange.extends

theorem changes_take (n : Nat) (r : Reader) :
    Relation.ReflTransGen Change r.catalogue (r.take n).reader.catalogue := by
  -- every pull is one change; after one without an event there is no other
  induction n generalizing r with
  | zero => exact .refl
  | succ n ih =>
    have hpull : Change r.catalogue r.next.2.catalogue := .pull r rfl
    rw [Reader.take_succ]
    generalize r.next = answer at hpull
    rcases answer with ⟨_ | e | event, r'⟩
    · exact .single hpull
    · exact .single hpull
    · exact .head hpull (ih r')

theorem changes_run (operations : List Operation) (c : Catalogue) :
    Relation.ReflTransGen Change c (c.run operations) := by
  induction operations generalizing c with
  | nil => exact .refl
  | cons op operations ih =>
    have happly : Relation.ReflTransGen Change c (c.apply op) := by
      cases op with
      | read file text pulls => exact changes_take _ (Reader.start c _)
      | reserve name => exact .single (.reserve name)
      | link => exact .single .link
    exact happly.trans (ih (c.apply op))

/-- The name is reserved in `c` and declared in `c'`. -/
def Completes (name : Text) (c c' : Catalogue) : Prop :=
  (∃ o, c.sections.find? name = some o ∧ o.isReserved = true) ∧ c'.Declares name

theorem not_completes_of_declares (h : c.Declares name) : ¬ Completes name c c' := by
  rintro ⟨⟨o, ho, hreserved⟩, -⟩
  obtain ⟨o', ho', hdeclared⟩ := declares_iff.1 h
  rw [ho] at ho'
  cases ho'
  rw [hreserved] at hdeclared
  cases hdeclared

/-- Nothing that is done to a catalogue takes anything away from it. -/
structure AppendOnly (c : Catalogue) : Prop where
  change_extends : ∀ c', Change c c' → c.Extends Section.Keeps c'
  /-- Only linking changes which sections are below a section. -/
  next_extends : ∀ r : Reader, r.catalogue = c → c.Extends Section.KeepsSubs r.next.2.catalogue
  reserve_extends : ∀ name, c.Extends Section.KeepsSubs (c.reserve name)
  /-- The same holds from the beginning to the end of a run. -/
  run_extends : ∀ operations, c.Extends Section.Keeps (c.run operations)
  /-- A name whose reservation was completed is never again reserved and completed. -/
  completed_once : ∀ name c₁ c₂ c₃, Change c c₁ → Completes name c c₁ →
    Relation.ReflTransGen Change c₁ c₂ → Change c₂ c₃ → ¬ Completes name c₂ c₃

/-- **Catalogues are append-only.** -/
theorem appendOnly (c : Catalogue) : c.AppendOnly where
  change_extends _ h := h.extends
  next_extends r hr := hr ▸ extends_next r
  reserve_extends := extends_reserve c
  run_extends operations := extends_of_changes (changes_run operations c)
  completed_once _ _ _ _ _ hcompletes hlater _ :=
    not_completes_of_declares ((extends_of_changes hlater).declares hcompletes.2)

end Catalogue

end TexSymbols

import TexSymbols.Proofs.Reader.Progress

/-!
# A reader reads groups

* `Reader.Pull` — what a pull comes to: groups without an event are passed over, then the stream
  ends, a group gives an event, or a group fails.
* `Reader.pull_next` — every pull of a reader is one of these.
* `Reader.Taken` — what a number of pulls comes to; `Reader.taken_take` — `take` is one of these.
-/

namespace TexSymbols

open ItemGroup

namespace Reader

variable {r r' : Reader}

/-- What the reader has come to, apart from its stream. -/
def progress (r : Reader) : Progress := ⟨r.catalogue, r.current⟩

/-- The groups of the items that the reader has not consumed. -/
def groups (r : Reader) : List ItemGroup := ofItems r.items.toList

@[simp] theorem groups_start (c : Catalogue) (items : List Item) :
    (start c items).groups = ofItems items := rfl

@[simp] theorem progress_catalogue (r : Reader) : r.progress.catalogue = r.catalogue := rfl

@[simp] theorem progress_current (r : Reader) : r.progress.current = r.current := rfl

/-! ## The cursor of a reader -/

/-- Pulling moves the cursor. -/
theorem next_of_pull {item : Option Item} (h : r.pull = (item, r')) :
    r.items.next = (item, r'.items) := by
  have hitem : r.pull.1 = item := by rw [h]
  have hitems : r.pull.2.items = r'.items := by rw [h]
  exact Prod.ext hitem hitems

theorem toList_pull {item : Item} (h : r.pull = (some item, r')) :
    r.items.toList = item :: r'.items.toList :=
  Lookahead.toList_of_next_eq_some (next_of_pull h)

theorem progress_pull {item : Option Item} (h : r.pull = (item, r')) : r'.progress = r.progress :=
  congrArg (fun answer => answer.2.progress) h.symm

theorem failed_pull {item : Option Item} (h : r.pull = (item, r')) : r'.failed = r.failed :=
  congrArg (fun answer => answer.2.failed) h.symm

/-- A reader at the end of its stream stays as it is. -/
theorem pull_eq_none (h : r.pull = (none, r')) : r.items.toList = [] ∧ r' = r := by
  obtain ⟨hnil, hitems⟩ := Lookahead.eq_of_next_eq_none (next_of_pull h)
  have hnext : r.items.next = (none, r.items) := by rw [next_of_pull h, hitems]
  refine ⟨hnil, (congrArg Prod.snd h).symm.trans ?_⟩
  simp [pull, hnext]

theorem takeAttributes_attributes (r : Reader) :
    r.takeAttributes.1 = attributesOf (runOf r.items.toList) :=
  gather_attributes ..

theorem takeAttributes_progress (r : Reader) :
    r.takeAttributes.2.progress =
      r.progress.warn (runWarnings r.catalogue.knownTags (runOf r.items.toList)) := by
  simp only [takeAttributes, progress, warn, Progress.warn, gather_warnings, runOf]

theorem takeAttributes_catalogue (r : Reader) : r.takeAttributes.2.catalogue =
    (r.progress.warn (runWarnings r.catalogue.knownTags (runOf r.items.toList))).catalogue :=
  congrArg Progress.catalogue (takeAttributes_progress r)

theorem takeAttributes_toList (r : Reader) :
    r.takeAttributes.2.items.toList = behindRun r.items.toList :=
  gather_rest ..

/-! ## One group -/

/-- What a reader answers about a group whose reading has the given outcome. -/
def answer (g : ItemGroup) : Option ReadError → Option (Except ReadError Event)
  | some e => some (.error e)
  | none => g.event?.map .ok

/-- A reader has read `g` and answers: with an error it has failed, without one it stands before
`later`. -/
structure ReadsGroup (p : Progress) (g : ItemGroup) (later : List Item)
    (outcome : Option (Except ReadError Event) × Reader) : Prop where
  progress_eq : outcome.2.progress = (g.read p).2
  answer_eq : outcome.1 = answer g (g.read p).1
  failed_eq : outcome.2.failed = (g.read p).1.isSome
  toList_eq : (g.read p).1 = none → outcome.2.items.toList = later

/-- A group that fails. -/
theorem ReadsGroup.of_error {p : Progress} {g : ItemGroup} {later : List Item} {e : ReadError}
    (h : g.read p = (some e, r'.progress)) : ReadsGroup p g later (r'.fail e) where
  progress_eq := by rw [h]; rfl
  answer_eq := by rw [h]; rfl
  failed_eq := by rw [h]; rfl
  toList_eq := by simp [h]

/-- A group that succeeds. -/
theorem ReadsGroup.of_ok {p : Progress} {g : ItemGroup} {later : List Item} {event : Event}
    (h : g.read p = (none, r'.progress)) (hevent : g.event? = some event) (hr : r'.failed = false)
    (hlist : r'.items.toList = later) : ReadsGroup p g later (some (.ok event), r') where
  progress_eq := by rw [h]
  answer_eq := by rw [h, answer, hevent]; rfl
  failed_eq := by rw [h]; exact hr
  toList_eq _ := hlist

theorem readsGroup_readSection {b : Block} (htag : b.tag = Tag.declares) (hr : r.failed = false) :
    ReadsGroup r.progress ⟨b.item, runOf r.items.toList⟩ (behindRun r.items.toList)
      (r.readSection b) := by
  have hread : (ItemGroup.mk b.item (runOf r.items.toList)).read r.progress =
      r.progress.readSection b (runOf r.items.toList) := by
    simp [ItemGroup.read, Block.item, htag]
  cases hhead : sectionHead? b.content with
  | none =>
    rw [readSection, hhead]
    refine .of_error ?_
    rw [hread, Progress.readSection, hhead]
  | some head =>
    obtain ⟨name, description⟩ := head
    cases hdec : r.takeAttributes.2.catalogue.declare name
        ⟨description, r.takeAttributes.1, b.loc⟩ with
    | error e =>
      simp only [readSection, hhead, hdec]
      refine .of_error ?_
      rw [takeAttributes_attributes, takeAttributes_catalogue] at hdec
      rw [hread, takeAttributes_progress]
      simp only [Progress.readSection, hhead, progress_catalogue, hdec]
    | ok c =>
      simp only [readSection, hhead, hdec]
      refine .of_ok ?_ ?_ hr (takeAttributes_toList r)
      · rw [takeAttributes_attributes, takeAttributes_catalogue] at hdec
        rw [hread]
        simp only [Progress.readSection, hhead, progress_catalogue, hdec]
        rfl
      · simp [event?, Block.item, htag, sectionName_eq hhead]

theorem readsGroup_readDefinition (d : Definition) (loc : Location) (hr : r.failed = false) :
    ReadsGroup r.progress ⟨.ok (.definition d loc), runOf r.items.toList⟩ (behindRun r.items.toList)
      (r.readDefinition d loc) := by
  have hread : (ItemGroup.mk (.ok (.definition d loc)) (runOf r.items.toList)).read r.progress =
      r.progress.readDefinition d loc (runOf r.items.toList) := rfl
  cases howner : r.current with
  | none =>
    rw [readDefinition, howner]
    refine .of_error ?_
    rw [hread, Progress.readDefinition, progress_current, howner]
  | some owner =>
    have hsymbols : r.takeAttributes.2.catalogue.symbols = r.catalogue.symbols := rfl
    rw [readDefinition, howner]
    simp only [addSymbol, takeAttributes_attributes, hsymbols]
    cases hentry : NomenclatureEntry.read? (Progress.entryOf (runOf r.items.toList)) with
    | none =>
      rw [Progress.entryOf] at hentry
      rw [hentry]
      refine .of_error ?_
      rw [hread, takeAttributes_progress]
      simp only [Progress.readDefinition, progress_current, howner, Progress.entryOf, hentry,
        progress_catalogue]
    | some nomenclature =>
      have hentry' := hentry
      rw [Progress.entryOf] at hentry'
      rw [hentry']
      cases hsymbol : r.catalogue.symbols.find? d.command with
      | some earlier =>
        refine .of_error ?_
        rw [hread, takeAttributes_progress]
        simp only [Progress.readDefinition, progress_current, howner, progress_catalogue, hentry,
          Progress.warn_symbols, hsymbol]
      | none =>
        refine .of_ok ?_ rfl hr (takeAttributes_toList r)
        rw [hread]
        simp only [Progress.readDefinition, progress_current, howner, progress_catalogue, hentry,
          Progress.warn_symbols, hsymbol]
        rw [← takeAttributes_progress]
        rfl

/-- The first group of the items that a reader has not consumed. -/
theorem groups_of_pull_head {item : Item} (h : r.pull = (some item, r'))
    (hitem : isHead item = true) :
    r.groups = ⟨item, runOf r'.items.toList⟩ :: ofItems (behindRun r'.items.toList) := by
  rw [groups, toList_pull h, ofItems_cons_of_isHead hitem]

theorem groups_of_pull_other {item : Item} (h : r.pull = (some item, r'))
    (hitem : isHead item = false) :
    r.groups = ⟨item, []⟩ :: r'.groups := by
  rw [groups, toList_pull h, ofItems_cons_of_not_isHead hitem, groups]

/-! ## One pull -/

/-- What a pull of a reader that has not failed comes to. -/
inductive Pull : Reader → Option (Except ReadError Event) → Reader → Prop
  /-- The stream has ended. -/
  | finished {r : Reader} : r.groups = [] → r.failed = false → Pull r none r
  /-- A group without an event is passed over. -/
  | skipped {r r₁ r' : Reader} {g : ItemGroup} {outcome : Option (Except ReadError Event)} :
      r.groups = g :: r₁.groups → g.read r.progress = (none, r₁.progress) → g.event? = none →
      Pull r₁ outcome r' → Pull r outcome r'
  /-- A group gives an event. -/
  | event {r r' : Reader} {g : ItemGroup} {event : Event} :
      r.groups = g :: r'.groups → g.read r.progress = (none, r'.progress) → g.event? = some event →
      r'.failed = false → Pull r (some (.ok event)) r'
  /-- A group fails. -/
  | failed {r r' : Reader} {g : ItemGroup} {later : List ItemGroup} {e : ReadError} :
      r.groups = g :: later → g.read r.progress = (some e, r'.progress) → r'.failed = true →
      Pull r (some (.error e)) r'

/-- A head is read with its run in one pull. -/
theorem Pull.of_head {g : ItemGroup} {later : List Item}
    {outcome : Option (Except ReadError Event) × Reader}
    {event : Event} (h : ReadsGroup r.progress g later outcome)
    (hgroups : r.groups = g :: ofItems later)
    (hevent : g.event? = some event) : Pull r outcome.1 outcome.2 := by
  obtain ⟨hprogress, hanswer, hfailed, hlist⟩ := h
  rw [hanswer]
  cases herror : (g.read r.progress).1 with
  | none =>
    rw [answer, hevent]
    rw [herror] at hfailed
    refine .event ?_ (Prod.ext herror hprogress.symm) hevent hfailed
    rw [hgroups, groups, hlist herror]
  | some e =>
    rw [herror] at hfailed
    exact .failed hgroups (Prod.ext herror hprogress.symm) hfailed

/-- **Every pull reads groups, up to the first event, the first error or the end.** -/
theorem pull_next (hr : r.failed = false) : Pull r r.next.1 r.next.2 := by
  fun_induction next r with
  | case1 r h => rw [hr] at h; cases h
  | case2 r _ r' h =>
    obtain ⟨hnil, rfl⟩ := pull_eq_none h
    exact .finished (by rw [groups, hnil, ofItems]) hr
  | case3 r _ e r' h =>
    refine .failed (groups_of_pull_other h rfl) ?_ rfl
    exact Prod.ext rfl (progress_pull h).symm
  | case4 r _ line loc r' h =>
    refine .event (groups_of_pull_other h rfl) ?_ rfl ((failed_pull h).trans hr)
    exact Prod.ext rfl (progress_pull h).symm
  | case5 r _ d loc r' h =>
    have hread := readsGroup_readDefinition d loc ((failed_pull h).trans hr)
    rw [progress_pull h] at hread
    exact Pull.of_head hread (groups_of_pull_head h rfl) rfl
  | case6 r _ b r' h htag =>
    have hread := readsGroup_readSection htag ((failed_pull h).trans hr)
    rw [progress_pull h] at hread
    have hevent : (ItemGroup.mk b.item (runOf r'.items.toList)).event? =
        some (.declared b.sectionName) := by
      simp [event?, Block.item, htag]
    exact Pull.of_head hread (groups_of_pull_head h (decide_eq_true htag)) hevent
  | case7 r _ b r' h htag ih =>
    have hgroups : r.groups = ⟨b.item, []⟩ :: r'.groups :=
      groups_of_pull_other h (decide_eq_false htag)
    have hwarn : (r'.warn [.floatingTag b.tag b.loc]).groups = r'.groups := rfl
    refine .skipped (hgroups.trans (by rw [hwarn])) ?_ (by simp [event?, Block.item, htag])
      (ih ((failed_pull h).trans hr))
    simp only [ItemGroup.read, Block.item, htag, if_false, ← progress_pull h]
    rfl

/-- A reader that has failed, or that has come to the end, yields nothing more and stays as it
is. -/
theorem next_of_finished (h : r.failed = true ∨ r.groups = []) : r.next = (none, r) := by
  cases hr : r.failed with
  | true => rw [next, if_pos hr]
  | false =>
    have hnil : r.groups = [] := h.resolve_left (by simp [hr])
    have hpull := pull_next hr
    rcases hnext : r.next with ⟨outcome, r'⟩
    rw [hnext] at hpull
    cases hpull with
    | finished => rfl
    | skipped hgroups => rw [hnil] at hgroups; cases hgroups
    | event hgroups => rw [hnil] at hgroups; cases hgroups
    | failed hgroups => rw [hnil] at hgroups; cases hgroups

/-! ## Many pulls -/

/-- What a pull and at most `n` pulls after it give. -/
def thenTake (n : Nat) : Option (Except ReadError Event) × Reader → Reading
  | (none, r) => ⟨[], none, r⟩
  | (some (.error e), r) => ⟨[], some e, r⟩
  | (some (.ok event), r) => { r.take n with events := event :: (r.take n).events }

theorem take_succ (n : Nat) (r : Reader) : r.take (n + 1) = thenTake n r.next := by
  rw [take]
  rcases r.next with ⟨_ | e | event, r'⟩ <;> rfl

/-- What at most `n` pulls of a reader come to. -/
inductive Taken (r : Reader) (n : Nat) (t : Reading) : Prop
  /-- No group failed. -/
  | stopped {done : List ItemGroup} :
      r.groups = done ++ t.reader.groups → Reads r.progress done t.reader.progress →
      t.events = done.filterMap event? → t.error = none → t.reader.failed = false →
      (t.reader.groups = [] ∨ n ≤ t.events.length) → Taken r n t
  /-- The group `g` failed. -/
  | failed {done later : List ItemGroup} {g : ItemGroup} {p : Progress} {e : ReadError} :
      r.groups = done ++ g :: later → Reads r.progress done p → t.events = done.filterMap event? →
      g.read p = (some e, t.reader.progress) → t.error = some e → t.reader.failed = true →
        Taken r n t

/-- A group that is read before the others comes first in what was read. -/
theorem Taken.cons {r₁ : Reader} {g : ItemGroup} {n m : Nat} {t : Reading}
    (hgroups : r.groups = g :: r₁.groups)
    (hread : g.read r.progress = (none, r₁.progress)) (h : Taken r₁ n t)
    (hm : m ≤ n + g.event?.toList.length) :
    Taken r m { t with events := g.event?.toList ++ t.events } := by
  have hcons : ∀ done : List ItemGroup,
      g.event?.toList ++ done.filterMap event? = (g :: done).filterMap event? := by
    intro done
    cases hevent : g.event? <;> simp [hevent]
  cases h with
  | stopped hlist hreads hevents herror hfailed hend =>
    refine .stopped (by rw [hgroups, hlist, List.cons_append]) (.cons hread hreads) ?_
      herror hfailed ?_
    · rw [hevents, hcons]
    · refine hend.imp_right fun hn => ?_
      simp only [List.length_append]
      omega
  | failed hlist hreads hevents hg herror hfailed =>
    refine .failed (by rw [hgroups, hlist, List.cons_append]) (.cons hread hreads) ?_
      hg herror hfailed
    rw [hevents, hcons]

theorem taken_of_pull {n : Nat} {outcome : Option (Except ReadError Event)} (h : Pull r outcome r')
    (hrest : r'.failed = false → Taken r' n (r'.take n)) :
    Taken r (n + 1) (thenTake n (outcome, r')) := by
  induction h with
  | finished hgroups hfailed =>
    exact .stopped (by simp [hgroups, thenTake]) (.nil _) rfl rfl hfailed (.inl hgroups)
  | skipped hgroups hread hevent _ ih =>
    have := Taken.cons (m := n + 1) hgroups hread (ih hrest) (by simp [hevent])
    rwa [hevent] at this
  | event hgroups hread hevent hfailed =>
    have := Taken.cons (m := n + 1) hgroups hread (hrest hfailed) (by simp [hevent])
    rwa [hevent] at this
  | failed hgroups hread hfailed =>
    exact .failed (by simpa using hgroups) (.nil _) rfl hread rfl hfailed

/-- **A number of pulls reads groups.** -/
theorem taken_take (n : Nat) (hr : r.failed = false) : Taken r n (r.take n) := by
  induction n generalizing r with
  | zero => exact .stopped rfl (.nil _) rfl rfl hr (.inr (Nat.le_refl 0))
  | succ n ih =>
    rw [take_succ]
    exact taken_of_pull (pull_next hr) ih

end Reader

end TexSymbols

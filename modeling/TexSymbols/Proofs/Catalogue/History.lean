import TexSymbols.Proofs.Catalogue.Runs
import TexSymbols.Proofs.Reader.Outcome

/-!
# The history of a run

* `ItemGroup.isEventful` — whether reading the group gives an event, if it succeeds.
* `Catalogue.eventGroups`, `Catalogue.history` — the groups behind the events of an operation, and
  behind those of a run; `events_eq` — their events are those that the readings gave.
* `Catalogue.HistoryInvariant` — what every step of a run keeps, said of the history so far and the
  catalogue; `HistoryInvariant.run` — it holds after every run.
-/

namespace TexSymbols

open ItemGroup

/-- Whether reading the group gives an event, if it succeeds. -/
def ItemGroup.isEventful (g : ItemGroup) : Bool := g.event?.isSome

theorem filterMap_filter_isEventful {α : Type} {f : ItemGroup → Option α}
    (hf : ∀ g, g.event? = none → f g = none) (groups : List ItemGroup) :
    (groups.filter isEventful).filterMap f = groups.filterMap f := by
  rw [List.filterMap_filter]
  refine List.filterMap_congr fun g _ => ?_
  cases hevent : g.event? with
  | none => simp [isEventful, hevent, hf g hevent]
  | some event => simp [isEventful, hevent]

namespace Catalogue

variable {c : Catalogue} {past : List ItemGroup}

/-! ## Groups behind events -/

/-- The groups behind the events of an operation: as many as it gave events, from the beginning of
the text, passing over those that can give none. -/
def eventGroups (c : Catalogue) : Operation → List ItemGroup
  | .read file text pulls =>
    ((ofItems (Token.stream file text)).filter isEventful).take
      (c.read file text pulls).events.length
  | .reserve _ => []
  | .link => []

/-- The groups behind all events of a run, in the order of the run. -/
def history (c : Catalogue) : List Operation → List ItemGroup
  | [] => []
  | op :: operations => c.eventGroups op ++ (c.apply op).history operations

theorem run_append (c : Catalogue) (operations later : List Operation) :
    c.run (operations ++ later) = (c.run operations).run later :=
  List.foldl_append ..

/-- If the events are those of the first groups, these are the groups behind them. -/
theorem eventGroups_eq {file text : Text} {pulls : Option Nat} {done rest : List ItemGroup}
    (hsplit : ofItems (Token.stream file text) = done ++ rest)
    (hevents : (c.read file text pulls).events = done.filterMap event?) :
    c.eventGroups (.read file text pulls) = done.filter isEventful := by
  have hlength : (done.filterMap event?).length = (done.filter isEventful).length := by
    rw [List.length_filterMap_eq_countP, ← List.countP_eq_length_filter]
    rfl
  rw [eventGroups, hevents, hlength, hsplit, List.filter_append, List.take_left']
  rfl

/-- A reading reads groups; those with an event are the ones behind its events, and a failing group
behind them leaves warnings about its run at most. -/
theorem exists_reads (c : Catalogue) (file text : Text) (pulls : Option Nat) :
    ∃ done p, Reads ⟨c, none⟩ done p ∧
      (c.read file text pulls).events = done.filterMap event? ∧
      c.eventGroups (.read file text pulls) = done.filter isEventful ∧
      ((c.read file text pulls).reader.progress = p ∨
        ∃ known run,
          (c.read file text pulls).reader.progress = p.warn (runWarnings known run)) := by
  have htaken := Reader.taken_take (pulls.getD ((Token.stream file text).length + 1))
    (r := Reader.start c (Token.stream file text)) rfl
  rw [show Reader.take _ (Reader.start c (Token.stream file text)) = c.read file text pulls from
    rfl] at htaken
  cases htaken with
  | stopped hsplit hreads hevents =>
    exact ⟨_, _, hreads, hevents, eventGroups_eq hsplit hevents, .inl rfl⟩
  | failed hsplit hreads hevents hg =>
    refine ⟨_, _, hreads, hevents, eventGroups_eq hsplit hevents, ?_⟩
    obtain ⟨-, heq | heq⟩ := read_eq_some hg
    · exact .inl heq
    · exact .inr ⟨_, _, heq⟩

/-- **The groups behind the events of a reading give these events.** -/
theorem events_eq (c : Catalogue) (file text : Text) (pulls : Option Nat) :
    (c.eventGroups (.read file text pulls)).filterMap event? =
      (c.read file text pulls).events := by
  obtain ⟨done, p, -, hevents, hgroups, -⟩ := exists_reads c file text pulls
  rw [hgroups, hevents, filterMap_filter_isEventful (fun _ h => h)]

/-- The items of a group of the history come from a text that was read. -/
theorem mem_stream_of_mem_history {operations : List Operation} {g : ItemGroup} {item : Item}
    (h : g ∈ c.history operations) (hitem : item ∈ g.items) :
    ∃ file text pulls, .read file text pulls ∈ operations ∧ item ∈ Token.stream file text := by
  induction operations generalizing c with
  | nil => cases h
  | cons op operations ih =>
    rw [history, List.mem_append] at h
    rcases h with h | h
    · cases op with
      | read file text pulls =>
        have hgroup := List.mem_of_mem_filter (List.mem_of_mem_take h)
        exact ⟨file, text, pulls, List.mem_cons_self, mem_of_mem_ofItems hgroup hitem⟩
      | reserve name => cases h
      | link => cases h
    · obtain ⟨file, text, pulls, hop, hstream⟩ := ih h
      exact ⟨file, text, pulls, List.mem_cons_of_mem _ hop, hstream⟩

theorem first_mem_stream_of_mem_history {operations : List Operation} {g : ItemGroup}
    (h : g ∈ c.history operations) :
    ∃ file text pulls, .read file text pulls ∈ operations ∧ g.first ∈ Token.stream file text :=
  mem_stream_of_mem_history h List.mem_cons_self

/-! ## Invariants with a history -/

/-- `P` relates the groups behind the events so far to what reading has come to, and every step of a
run keeps it.  Between two files there is no current section. -/
structure HistoryInvariant (P : List ItemGroup → Progress → Prop) : Prop where
  new : ∀ knownTags, P [] ⟨new knownTags, none⟩
  step : ∀ past p p' g, p.Sound → P past p → g.Step p p' →
    P (past ++ [g].filter isEventful) p'
  warn : ∀ past p known run, p.Sound → P past p → P past (p.warn (runWarnings known run))
  finish : ∀ past p, P past p → P past ⟨p.catalogue, none⟩
  reserve : ∀ past c name, c.WellFormed → P past ⟨c, none⟩ → P past ⟨c.reserve name, none⟩
  link : ∀ past c, c.WellFormed → P past ⟨c, none⟩ → P past ⟨c.link, none⟩

namespace HistoryInvariant

variable {P : List ItemGroup → Progress → Prop}

theorem reads (hP : HistoryInvariant P) {p p' : Progress} {groups : List ItemGroup}
    (h : Reads p groups p') (hsound : p.Sound) (hp : P past p) :
    P (past ++ groups.filter isEventful) p' := by
  -- the history grows by each group that has an event
  induction h generalizing past with
  | nil => rwa [List.filter_nil, List.append_nil]
  | @cons p p₁ p' g groups hg _ ih =>
    have hstep := step_of_read hg
    have hrest := ih (hsound.step hstep) (hP.step past p p₁ g hsound hp hstep)
    rwa [List.append_assoc, ← List.filter_append] at hrest

theorem apply (hP : HistoryInvariant P) (hc : c.WellFormed) (hp : P past ⟨c, none⟩)
    (op : Operation) : P (past ++ c.eventGroups op) ⟨c.apply op, none⟩ := by
  cases op with
  | read file text pulls =>
    obtain ⟨done, p, hreads, -, hgroups, hend⟩ := exists_reads c file text pulls
    have hstart : Progress.Sound ⟨c, none⟩ := ⟨hc, fun name hname => by cases hname⟩
    have hdone := hP.reads hreads hstart hp
    rw [hgroups]
    refine hP.finish _ (c.read file text pulls).reader.progress ?_
    rcases hend with hend | ⟨known, run, hend⟩
    · rw [hend]
      exact hdone
    · rw [hend]
      exact hP.warn _ _ known run (hstart.reads hreads) hdone
  | reserve name =>
    rw [eventGroups, List.append_nil]
    exact hP.reserve _ _ name hc hp
  | link =>
    rw [eventGroups, List.append_nil]
    exact hP.link _ _ hc hp

/-- **What every step keeps holds after every run.** -/
theorem run (hP : HistoryInvariant P) (knownTags : List Text) (operations : List Operation) :
    P ((Catalogue.new knownTags).history operations)
      ⟨(Catalogue.new knownTags).run operations, none⟩ := by
  suffices h : ∀ c past, c.WellFormed → P past ⟨c, none⟩ →
      P (past ++ c.history operations) ⟨c.run operations, none⟩ from
    h _ [] (wellFormed_new knownTags) (hP.new knownTags)
  induction operations with
  | nil =>
    intro c past _ hp
    rwa [Catalogue.history, List.append_nil]
  | cons op operations ih =>
    intro c past hc hp
    rw [Catalogue.history, ← List.append_assoc]
    exact ih _ _ (hc.apply op) (hP.apply hc hp op)

end HistoryInvariant

end Catalogue

end TexSymbols

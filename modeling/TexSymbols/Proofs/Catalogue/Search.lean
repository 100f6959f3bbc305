import Mathlib.Data.List.Find
import Mathlib.Logic.Relation
import TexSymbols.Catalogue.Closure
import TexSymbols.Proofs.Catalogue.Runs
import TexSymbols.Proofs.Text.Distinct

/-!
# The search for the symbols a document needs

* `Catalogue.Refers`, `Catalogue.Reaches` — from a symbol to the commands of its body, and from the
  used commands along such links.
* `Search` — a state of the search; `Search.next` — one round of it, which looks commands up in the
  whole catalogue.
* `Search.Sound` — the invariant: what is visited or waits is reached, and of what is used or
  referred to nothing is lost; `Sound.rounds` — any number of rounds keep it.
* `rounds_exploreFrom` — the search comes to an end, with the symbols that `explore` finds.
* `Sound.mem_seen_iff` — what is visited then is what is reached.
-/

namespace TexSymbols

theorem Symbol.mem_references {s : Symbol} {command : Text} :
    command ∈ s.references ↔ command ∈ commands s.body :=
  Text.mem_distinct

namespace Catalogue

/-- The catalogue holds a symbol under the command, and its body uses `reference`. -/
def Refers (c : Catalogue) (command reference : Text) : Prop :=
  ∃ s ∈ c.symbols.values, s.command = command ∧ reference ∈ commands s.body

/-- The command is used, or a chain of references leads to it from one that is. -/
def Reaches (c : Catalogue) (used : List Text) (command : Text) : Prop :=
  ∃ first ∈ used, Relation.ReflTransGen c.Refers first command

variable {c : Catalogue} {used : List Text}

theorem Reaches.of_mem {command : Text} (h : command ∈ used) : c.Reaches used command :=
  ⟨command, h, .refl⟩

theorem Reaches.tail {command reference : Text} (h : c.Reaches used command)
    (hr : c.Refers command reference) : c.Reaches used reference := by
  obtain ⟨first, hfirst, hchain⟩ := h
  exact ⟨first, hfirst, hchain.tail hr⟩

/-- Only which commands are used matters, not in which order or how often. -/
theorem reaches_congr {used' : List Text} (h : ∀ command, command ∈ used' ↔ command ∈ used)
    (command : Text) : c.Reaches used' command ↔ c.Reaches used command := by
  simp only [Reaches, h]

theorem WellFormed.find?_eq_some_iff (hc : c.WellFormed) {command : Text} {s : Symbol} :
    c.symbols.find? command = some s ↔ s ∈ c.symbols.values ∧ s.command = command := by
  rw [OrderedMap.find?_eq_some_iff]
  constructor
  · intro h
    exact ⟨OrderedMap.mem_values.2 ⟨command, h⟩, hc.symbol_named _ h⟩
  · rintro ⟨hs, rfl⟩
    exact OrderedMap.find?_eq_some_iff.1 (hc.find?_command hs)

theorem WellFormed.refers_iff (hc : c.WellFormed) {command reference : Text} :
    c.Refers command reference ↔
      ∃ s, c.symbols.find? command = some s ∧ reference ∈ s.references := by
  simp only [Refers, hc.find?_eq_some_iff, Symbol.mem_references, and_assoc]

/-! ## Rounds of the search -/

/-- A state of the search: the commands that wait, the uppermost first, those that were visited, the
last one first, and the symbols that were found. -/
structure Search where
  stack : List Text
  seen : List Text
  found : List Symbol

namespace Search

/-- The search that starts from the commands `used`, the last one uppermost. -/
def start (used : List Text) : Search := ⟨used.reverse, [], []⟩

/-- One round; `none` when no command waits. -/
def next (c : Catalogue) (q : Search) : Option Search :=
  match q.stack with
  | [] => none
  | command :: stack =>
    if command ∈ q.seen then some { q with stack := stack }
    else
      match c.symbols.find? command with
      | some s => some ⟨s.references.reverse ++ stack, command :: q.seen, q.found ++ [s]⟩
      | none => some { q with stack := stack, seen := command :: q.seen }

def Round (c : Catalogue) (q q' : Search) : Prop := q.next c = some q'

/-- The command waits, or it was visited. -/
def Keeps (q : Search) (command : Text) : Prop := command ∈ q.stack ∨ command ∈ q.seen

variable {q q' : Search} {stack seen : List Text} {found : List Symbol} {command : Text}

theorem round_again (h : command ∈ seen) :
    Round c ⟨command :: stack, seen, found⟩ ⟨stack, seen, found⟩ := by
  simp only [Round, next, if_pos h]

theorem round_found {s : Symbol} (h : command ∉ seen) (hs : c.symbols.find? command = some s) :
    Round c ⟨command :: stack, seen, found⟩
      ⟨s.references.reverse ++ stack, command :: seen, found ++ [s]⟩ := by
  simp only [Round, next, if_neg h, hs]

theorem round_missing (h : command ∉ seen) (hs : c.symbols.find? command = none) :
    Round c ⟨command :: stack, seen, found⟩ ⟨stack, command :: seen, found⟩ := by
  simp only [Round, next, if_neg h, hs]

/-- A round drops a command that was visited, or visits one that was not. -/
theorem round_cases (h : Round c q q') : ∃ command stack, q.stack = command :: stack ∧
    (command ∈ q.seen ∧ q' = { q with stack := stack } ∨
      command ∉ q.seen ∧ q'.seen = command :: q.seen ∧
        ((∃ s, c.symbols.find? command = some s ∧ q'.found = q.found ++ [s] ∧
            q'.stack = s.references.reverse ++ stack) ∨
          c.symbols.find? command = none ∧ q'.found = q.found ∧ q'.stack = stack)) := by
  obtain ⟨stack, seen, found⟩ := q
  cases stack with
  | nil => cases h
  | cons command stack =>
    refine ⟨command, stack, rfl, ?_⟩
    by_cases hseen : command ∈ seen
    · have heq := (round_again hseen).symm.trans h
      exact .inl ⟨hseen, (Option.some.inj heq).symm⟩
    · refine .inr ⟨hseen, ?_⟩
      cases hs : c.symbols.find? command with
      | some s =>
        obtain rfl := Option.some.inj ((round_found hseen hs).symm.trans h)
        exact ⟨rfl, .inl ⟨s, rfl, rfl, rfl⟩⟩
      | none =>
        obtain rfl := Option.some.inj ((round_missing hseen hs).symm.trans h)
        exact ⟨rfl, .inr ⟨rfl, rfl, rfl⟩⟩

/-- What waits or was visited does so after a round. -/
theorem Keeps.round (h : Round c q q') (hk : q.Keeps command) : q'.Keeps command := by
  obtain ⟨first, stack, hstack, ⟨hseen, rfl⟩ | ⟨-, hseen, hrest⟩⟩ := round_cases h
  · rcases hk with hk | hk
    · rw [hstack, List.mem_cons] at hk
      rcases hk with rfl | hk
      · exact .inr hseen
      · exact .inl hk
    · exact .inr hk
  · have hsub : stack ⊆ q'.stack := by
      rcases hrest with ⟨s, -, -, heq⟩ | ⟨-, -, heq⟩
      · rw [heq]
        exact List.subset_append_right _ _
      · rw [heq]
        exact List.Subset.refl _
    rw [Keeps, hseen]
    rcases hk with hk | hk
    · rw [hstack, List.mem_cons] at hk
      rcases hk with rfl | hk
      · exact .inr List.mem_cons_self
      · exact .inl (hsub hk)
    · exact .inr (List.mem_cons_of_mem _ hk)

/-- What waits or was visited after a round did so before, or is referred to by what did. -/
theorem Keeps.of_round (hc : c.WellFormed) (h : Round c q q') {other : Text}
    (hk : q'.Keeps other) :
    q.Keeps other ∨ ∃ command, q.Keeps command ∧ c.Refers command other := by
  obtain ⟨command, stack, hstack, ⟨-, rfl⟩ | ⟨-, hseen, hrest⟩⟩ := round_cases h
  · refine .inl (hk.imp_left fun hmem => ?_)
    rw [hstack]
    exact List.mem_cons_of_mem _ hmem
  · have hcommand : q.Keeps command := .inl (by simp [hstack])
    have hold : other ∈ stack → q.Keeps other := fun hmem => .inl (by simp [hstack, hmem])
    rcases hk with hmem | hmem
    · rcases hrest with ⟨s, hs, -, heq⟩ | ⟨-, -, heq⟩
      · rw [heq, List.mem_append, List.mem_reverse] at hmem
        rcases hmem with href | hmem
        · exact .inr ⟨command, hcommand, hc.refers_iff.2 ⟨s, hs, href⟩⟩
        · exact .inl (hold hmem)
      · exact .inl (hold (heq ▸ hmem))
    · rw [hseen, List.mem_cons] at hmem
      rcases hmem with rfl | hmem
      · exact .inl hcommand
      · exact .inl (.inr hmem)

/-- What a command refers to waits after the round that visits it. -/
theorem keeps_of_refers (hc : c.WellFormed) (h : Round c q q') {reference : Text}
    (hmem : command ∈ q'.seen) (hnew : command ∉ q.seen) (href : c.Refers command reference) :
    q'.Keeps reference := by
  obtain ⟨s, hs, hreference⟩ := hc.refers_iff.1 href
  obtain ⟨first, stack, -, ⟨-, rfl⟩ | ⟨-, hseen, hrest⟩⟩ := round_cases h
  · exact absurd hmem hnew
  -- the round visits the command, so what it finds is the symbol that holds the reference
  · rw [hseen, List.mem_cons] at hmem
    obtain rfl := hmem.resolve_right hnew
    rcases hrest with ⟨s', hs', -, heq⟩ | ⟨hs', -, -⟩
    · obtain rfl := Option.some.inj (hs.symm.trans hs')
      exact .inl (by rw [heq]; simp [hreference])
    · rw [hs] at hs'
      cases hs'

/-! ## The invariant -/

/-- What holds in every state of a search. -/
structure Sound (c : Catalogue) (used : List Text) (q : Search) : Prop where
  seen_nodup : q.seen.Nodup
  /-- The symbols found are those of the visited commands, in the order of the visits. -/
  found_eq : q.found = q.seen.reverse.filterMap c.symbols.find?
  reached : ∀ command, q.Keeps command → c.Reaches used command
  used_kept : ∀ command ∈ used, q.Keeps command
  references_kept : ∀ command ∈ q.seen, ∀ reference, c.Refers command reference → q.Keeps reference

theorem sound_start (c : Catalogue) (used : List Text) : Sound c used (start used) where
  seen_nodup := List.nodup_nil
  found_eq := rfl
  reached command h := by
    rcases h with h | h
    · exact .of_mem (List.mem_reverse.1 h)
    · cases h
  used_kept command h := .inl (List.mem_reverse.2 h)
  references_kept command h := by cases h

theorem Sound.round (hc : c.WellFormed) (h : Sound c used q) (hr : Round c q q') :
    Sound c used q' := by
  have hvisits : q'.seen.Nodup ∧ q'.found = q'.seen.reverse.filterMap c.symbols.find? := by
    obtain ⟨command, stack, -, ⟨-, rfl⟩ | ⟨hnew, hseen, hrest⟩⟩ := round_cases hr
    · exact ⟨h.seen_nodup, h.found_eq⟩
    · rw [hseen, List.reverse_cons, List.filterMap_append, ← h.found_eq]
      refine ⟨List.nodup_cons.2 ⟨hnew, h.seen_nodup⟩, ?_⟩
      rcases hrest with ⟨s, hs, heq, -⟩ | ⟨hs, heq, -⟩ <;> simp [heq, hs]
  refine ⟨hvisits.1, hvisits.2, ?_, ?_, ?_⟩
  · intro other hother
    rcases hother.of_round hc hr with hold | ⟨command, hold, href⟩
    · exact h.reached other hold
    · exact (h.reached command hold).tail href
  · intro other hother
    exact (h.used_kept other hother).round hr
  · intro command hcommand reference href
    by_cases hold : command ∈ q.seen
    · exact (h.references_kept command hold reference href).round hr
    · exact keeps_of_refers hc hr hcommand hold href

theorem Sound.rounds (hc : c.WellFormed) (h : Sound c used q)
    (hr : Relation.ReflTransGen (Round c) q q') : Sound c used q' := by
  induction hr with
  | refl => exact h
  | tail _ hround ih => exact ih.round hc hround

/-- **Once nothing waits, what was visited is what is reached.** -/
theorem Sound.mem_seen_iff (h : Sound c used q) (hend : q.stack = []) :
    command ∈ q.seen ↔ c.Reaches used command := by
  have hkeeps : ∀ {other}, q.Keeps other → other ∈ q.seen := by
    intro other hother
    simpa [Keeps, hend] using hother
  constructor
  · exact fun hmem => h.reached command (.inr hmem)
  · rintro ⟨first, hfirst, hchain⟩
    induction hchain with
    | refl => exact hkeeps (h.used_kept first hfirst)
    | tail _ hlink ih => exact hkeeps (h.references_kept _ ih _ hlink)

end Search

/-! ## The search ends -/

theorem find?_others {symbols : List Symbol} {command other : Text} (h : other ≠ command) :
    (others symbols command).find? (·.command = other) =
      symbols.find? (·.command = other) := by
  rw [others, List.find?_filter]
  refine congrArg (symbols.find? ·) (funext fun s => ?_)
  by_cases hs : s.command = other
  · simp [hs, h]
  · simp [hs]

theorem WellFormed.find?_values (hc : c.WellFormed) (command : Text) :
    c.symbols.values.find? (·.command = command) = c.symbols.find? command := by
  have hkey : ∀ e ∈ c.symbols.entries,
      decide (e.2.command = command) = decide (e.1 = command) := by
    intro e he
    rw [hc.symbol_named e he]
  rw [OrderedMap.values, List.find?_map, OrderedMap.find?]
  exact congrArg (Option.map Prod.snd) (List.find?_congr hkey)

/-- Rounds lead to an empty stack, and find what `exploreFrom` finds, as long as looking for what
was not visited in `unseen` is looking for it in the catalogue. -/
theorem rounds_exploreFrom (unseen : List Symbol) (seen stack : List Text) (found : List Symbol)
    (hunseen : ∀ command ∉ seen,
      unseen.find? (·.command = command) = c.symbols.find? command) :
    ∃ seen', Relation.ReflTransGen (Search.Round c) ⟨stack, seen, found⟩
      ⟨[], seen', found ++ (exploreFrom unseen seen stack).filterMap Visit.symbol?⟩ := by
  -- along the recursion of the search, which forgets a symbol when it finds it, while a round
  -- keeps the catalogue as it is
  fun_induction exploreFrom unseen seen stack generalizing found with
  | case1 unseen seen => exact ⟨seen, by simpa using Relation.ReflTransGen.refl⟩
  | case2 unseen seen command stack hseen ih =>
    obtain ⟨seen', hrounds⟩ := ih found hunseen
    exact ⟨seen', .head (Search.round_again hseen) hrounds⟩
  | case3 unseen seen command stack hseen s hs ih =>
    rw [hunseen command hseen] at hs
    have hothers : ∀ other ∉ command :: seen,
        (others unseen command).find? (·.command = other) = c.symbols.find? other := by
      intro other hother
      rw [List.mem_cons, not_or] at hother
      rw [find?_others hother.1, hunseen other hother.2]
    obtain ⟨seen', hrounds⟩ := ih (found ++ [s]) hothers
    refine ⟨seen', .head (Search.round_found hseen hs) ?_⟩
    rw [List.filterMap_cons_some (show Visit.symbol? (.found s) = some s from rfl)]
    rwa [List.append_assoc] at hrounds
  | case4 unseen seen command stack hseen hs ih =>
    rw [hunseen command hseen] at hs
    obtain ⟨seen', hrounds⟩ := ih found fun other hother =>
      hunseen other fun hmem => hother (List.mem_cons_of_mem _ hmem)
    exact ⟨seen', .head (Search.round_missing hseen hs) hrounds⟩

/-- **The search ends**, with the symbols that `explore` finds. -/
theorem WellFormed.exists_rounds (hc : c.WellFormed) (used : List Text) :
    ∃ q, Relation.ReflTransGen (Search.Round c) (.start used) q ∧ q.stack = [] ∧
      q.found = (c.explore used).filterMap Visit.symbol? := by
  obtain ⟨seen, hrounds⟩ := rounds_exploreFrom c.symbols.values [] used.reverse []
    fun command _ => hc.find?_values command
  exact ⟨_, hrounds, rfl, rfl⟩

end Catalogue

end TexSymbols

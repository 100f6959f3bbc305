import Mathlib.Logic.Function.Iterate
import TexSymbols.Proofs.Catalogue.History
import TexSymbols.Proofs.Token.Stream

/-!
# Failing pulls

* `Reader.pulled` — a reader after a number of pulls.
* `Catalogue.Intact` — a catalogue to which only warnings were added; `Reader.Pull.intact` — that is
  all that a failing pull does.
* `Catalogue.Located` — the invariant: every section and every symbol says where the history has it
  first.
* `Reader.FailsIntact` — a failing pull leaves everything as it was, now and for all later pulls,
  and reports the first place of what is declared or defined twice; `Reader.failsIntact_of_error` —
  every failing pull of a run does.
-/

namespace TexSymbols

open ItemGroup

/-! ## Readers after pulls -/

namespace Reader

variable {r r' : Reader} {outcome : Option (Except ReadError Event)} {e : ReadError}

/-- The reader after `n` pulls, whatever they give. -/
def pulled (n : Nat) (r : Reader) : Reader := (fun r : Reader => r.next.2)^[n] r

theorem pulled_succ (n : Nat) (r : Reader) : r.pulled (n + 1) = r.next.2.pulled n := rfl

theorem pulled_of_next_eq (h : r.next = (none, r)) (n : Nat) : r.pulled n = r :=
  Function.iterate_fixed (congrArg Prod.snd h) n

/-- A pull that gives no event is the last one that does anything. -/
theorem Pull.ended (h : Pull r outcome r') (hevent : ∀ event, outcome ≠ some (.ok event)) :
    r'.failed = true ∨ r'.groups = [] := by
  induction h with
  | finished hgroups => exact .inr hgroups
  | skipped _ _ _ _ ih => exact ih hevent
  | event => exact absurd rfl (hevent _)
  | failed _ _ hfailed => exact .inl hfailed

theorem next_of_ended (h : ∀ event, r.next.1 ≠ some (.ok event)) :
    r.next.2.next = (none, r.next.2) := by
  cases hr : r.failed with
  | true => rw [next_of_finished (.inl hr), next_of_finished (.inl hr)]
  | false => exact next_of_finished ((pull_next hr).ended h)

/-- Pulling no more behind the end changes nothing. -/
theorem reader_take (n : Nat) (r : Reader) : (r.take n).reader = r.pulled n := by
  induction n generalizing r with
  | zero => rfl
  | succ n ih =>
    have hended := next_of_ended (r := r)
    rw [take_succ, pulled_succ]
    generalize r.next = answer at hended
    rcases answer with ⟨_ | e | event, r'⟩
    · exact (pulled_of_next_eq (hended (by simp)) n).symm
    · exact (pulled_of_next_eq (hended (by simp)) n).symm
    · exact ih r'

/-- The groups before a reader are among the first ones. -/
theorem groups_pulled_suffix {n : Nat} (hr : r.failed = false) (h : (r.pulled n).failed = false) :
    (r.pulled n).groups <:+ r.groups := by
  have htaken := taken_take n hr
  rw [← reader_take] at h ⊢
  cases htaken with
  | stopped hgroups => exact ⟨_, hgroups.symm⟩
  | failed _ _ _ _ _ hfailed => rw [hfailed] at h; cases h

end Reader

/-! ## What a failing pull leaves -/

namespace Catalogue

variable {c c₁ c₂ c₃ : Catalogue}

/-- Only warnings were added. -/
structure Intact (c c' : Catalogue) : Prop where
  sections_eq : c'.sections = c.sections
  symbols_eq : c'.symbols = c.symbols
  nextOrder_eq : c'.nextOrder = c.nextOrder
  warnings_prefix : c.warnings <+: c'.warnings

theorem Intact.refl (c : Catalogue) : c.Intact c := ⟨rfl, rfl, rfl, List.prefix_rfl⟩

theorem intact_warn (c : Catalogue) (ws : List Warning) : c.Intact (c.warn ws) :=
  ⟨rfl, rfl, rfl, List.prefix_append ..⟩

theorem Intact.trans (h : c₁.Intact c₂) (h' : c₂.Intact c₃) : c₁.Intact c₃ where
  sections_eq := h'.sections_eq.trans h.sections_eq
  symbols_eq := h'.symbols_eq.trans h.symbols_eq
  nextOrder_eq := h'.nextOrder_eq.trans h.nextOrder_eq
  warnings_prefix := h.warnings_prefix.trans h'.warnings_prefix

/-- What the error says about an earlier section or symbol is what the catalogue says. -/
structure Explains (c : Catalogue) (e : ReadError) : Prop where
  section_loc : ∀ name loc earlier, e = .duplicateSection name loc earlier →
    (c.declaration? name).map Declaration.loc = some earlier
  symbol_loc : ∀ command loc earlier, e = .duplicateSymbol command loc earlier →
    (c.symbols.find? command).map Symbol.loc = some earlier

theorem Intact.explains (h : c₁.Intact c₂) {e : ReadError} (he : c₂.Explains e) :
    c₁.Explains e := by
  obtain ⟨hsection, hsymbol⟩ := he
  simp only [declaration?, h.sections_eq, h.symbols_eq] at hsection hsymbol
  exact ⟨hsection, hsymbol⟩

end Catalogue

namespace ItemGroup

variable {p p' : Progress} {g : ItemGroup} {e : ReadError}

/-- If the stream has an error where the group should begin, it is a tag without an end. -/
def FromStream (g : ItemGroup) : Prop := ∀ e, g.first = .error e → ∃ loc, e = .unterminatedTag loc

theorem fromStream_of_mem {file text : Text} (h : g ∈ ofItems (Token.stream file text)) :
    g.FromStream := by
  intro e he
  apply Token.eq_unterminatedTag_of_mem
  rw [← he, ← Token.stream, ← flatMap_items_ofItems (Token.stream file text), List.mem_flatMap]
  exact ⟨g, h, List.mem_cons_self⟩

theorem intact_of_event?_eq_none (h : g.read p = (none, p')) (hevent : g.event? = none) :
    p.catalogue.Intact p'.catalogue := by
  cases step_of_read h with
  | passthrough hg => simp [event?, hg] at hevent
  | floating => exact p.catalogue.intact_warn _
  | declared hg htag => simp [event?, hg, Block.item, htag] at hevent
  | defined hg => simp [event?, hg] at hevent

theorem intact_of_error (h : g.read p = (some e, p')) : p.catalogue.Intact p'.catalogue := by
  obtain ⟨-, rfl | rfl⟩ := read_eq_some h
  · exact .refl _
  · exact p.catalogue.intact_warn _

/-- The error of a group says where the catalogue has what comes again. -/
theorem explains_of_error (h : g.read p = (some e, p')) (hg : g.FromStream) :
    p.catalogue.Explains e := by
  obtain ⟨first, run⟩ := g
  rcases first with e' | ⟨d, loc⟩ | b | ⟨line, loc⟩
  · -- an error of the stream names nothing earlier
    obtain ⟨loc, rfl⟩ := hg e' rfl
    cases h
    exact ⟨by simp, by simp⟩
  · simp only [read, Progress.readDefinition] at h
    split at h
    · cases h
      exact ⟨by simp, by simp⟩
    · split at h
      · cases h
        exact ⟨by simp, by simp⟩
      · -- there is a symbol of that command
        rename_i earlier _ hfind
        cases h
        refine ⟨by simp, fun command loc' earlier' heq => ?_⟩
        cases heq
        exact congrArg (Option.map Symbol.loc) hfind
      · cases h
  · simp only [read] at h
    split at h
    · simp only [Progress.readSection] at h
      split at h
      · cases h
        exact ⟨by simp, by simp⟩
      · split at h
        · -- there is a section of that name
          rename_i hd
          cases h
          obtain ⟨earlier, hfind, rfl⟩ := Catalogue.declare_eq_error hd
          refine ⟨fun name loc' earlier' heq => ?_, by simp⟩
          cases heq
          exact congrArg (Option.map Declaration.loc) hfind
        · cases h
    · cases h
  · cases h

end ItemGroup

namespace Reader

variable {r r' : Reader} {e : ReadError}

/-- **A failing pull only leaves warnings**, and its error says where the catalogue has what comes
again. -/
theorem Pull.intact {outcome : Option (Except ReadError Event)} (h : Pull r outcome r')
    (houtcome : outcome = some (.error e)) (hr : ∀ g ∈ r.groups, g.FromStream) :
    r.catalogue.Intact r'.catalogue ∧ r.catalogue.Explains e := by
  induction h with
  | finished => cases houtcome
  | skipped hgroups hread hevent _ ih =>
    -- the catalogue before the error differs from the one before the pull by warnings only
    rw [hgroups, List.forall_mem_cons] at hr
    have hskip : Catalogue.Intact _ _ := intact_of_event?_eq_none hread hevent
    obtain ⟨hintact, hexplains⟩ := ih houtcome hr.2
    exact ⟨hskip.trans hintact, hskip.explains hexplains⟩
  | event => cases houtcome
  | failed hgroups hread =>
    cases houtcome
    rw [hgroups, List.forall_mem_cons] at hr
    exact ⟨intact_of_error hread, explains_of_error hread hr.1⟩

end Reader

/-! ## First places -/

namespace ItemGroup

variable {past : List ItemGroup} {p p' : Progress} {g : ItemGroup} {α : Type}

/-- A step either makes what `key` names, which was not there, or leaves it as it is. -/
def Makes (key : ItemGroup → Option Text) (g : ItemGroup) (name : Text) (place : α → Location)
    (old new : Option α) : Prop :=
  key g = some name ∧ old = none ∧ (∃ a, new = some a ∧ place a = g.loc) ∨
    key g ≠ some name ∧ new = old

theorem step_makes_declaration (hs : g.Step p p') (name : Text) :
    g.Makes section? name Declaration.loc (p.catalogue.declaration? name)
      (p'.catalogue.declaration? name) := by
  by_cases hg : g.section? = some name
  · obtain ⟨b, hb, htag, rfl⟩ := section?_eq_some_iff.1 hg
    obtain ⟨hnone, description, -, hsome⟩ := step_declared hs hb htag
    exact .inl ⟨hg, hnone, _, hsome, by rw [ItemGroup.loc, hb]; rfl⟩
  · exact .inr ⟨hg, step_declaration? hs hg⟩

theorem step_makes_symbol (hs : g.Step p p') (command : Text) :
    g.Makes command? command Symbol.loc (p.catalogue.symbols.find? command)
      (p'.catalogue.symbols.find? command) := by
  cases hs with
  | passthrough hg => exact .inr ⟨by simp [command?, event?, hg, Event.command?], rfl⟩
  | floating hg => exact .inr ⟨by simp [command?_of_block hg], rfl⟩
  | declared hg _ _ hdec =>
    refine .inr ⟨by simp [command?_of_block hg], ?_⟩
    rw [(Catalogue.declare_frame hdec).1]
    rfl
  | @defined d loc owner nomenclature hg _ _ hnew =>
    have hcommand := command?_of_definition hg
    by_cases heq : command = d.command
    · subst heq
      exact .inl ⟨hcommand, hnew, _, Catalogue.find?_register _, by rw [ItemGroup.loc, hg]; rfl⟩
    · refine .inr ⟨by simpa [hcommand] using Ne.symm heq, ?_⟩
      exact (OrderedMap.find?_insert ..).trans (if_neg heq)

/-- What says where the history has it first goes on doing so. -/
theorem Makes.map_find? {key : ItemGroup → Option Text} {name : Text} {place : α → Location}
    {old new : Option α} (h : g.Makes key name place old new)
    (hkey : g.event? = none → key g = none)
    (hold : old.map place = (past.find? (key · = some name)).map ItemGroup.loc) :
    new.map place =
      ((past ++ [g].filter isEventful).find? (key · = some name)).map ItemGroup.loc := by
  have hlast : ([g].filter isEventful).find? (key · = some name) =
      if key g = some name then some g else none := by
    cases hevent : g.event? with
    | none => simp [isEventful, hevent, hkey hevent]
    | some event => by_cases hname : key g = some name <;> simp [isEventful, hevent, hname]
  rw [List.find?_append, hlast]
  rcases h with ⟨hname, rfl, a, rfl, ha⟩ | ⟨hname, rfl⟩
  · have hnone : past.find? (key · = some name) = none := Option.map_eq_none_iff.1 hold.symm
    rw [hnone, if_pos hname, Option.none_or, Option.map_some, Option.map_some, ha]
  · rw [if_neg hname, Option.or_none, hold]

end ItemGroup

namespace Catalogue

variable {c : Catalogue} {past : List ItemGroup}

/-- Every section and every symbol says where the history has it first. -/
structure Located (past : List ItemGroup) (p : Progress) : Prop where
  section_loc : ∀ name, (p.catalogue.declaration? name).map Declaration.loc =
    (past.find? (·.section? = some name)).map ItemGroup.loc
  symbol_loc : ∀ command, (p.catalogue.symbols.find? command).map Symbol.loc =
    (past.find? (·.command? = some command)).map ItemGroup.loc

theorem historyInvariant_located : HistoryInvariant Located where
  new knownTags := ⟨fun _ => rfl, fun _ => rfl⟩
  step past p p' g _ h hs :=
    { section_loc := fun name =>
        (step_makes_declaration hs name).map_find? (by simp +contextual [section?])
          (h.section_loc name)
      symbol_loc := fun command =>
        (step_makes_symbol hs command).map_find? (by simp +contextual [command?])
          (h.symbol_loc command) }
  warn past p known run _ h := ⟨h.section_loc, h.symbol_loc⟩
  finish past p h := ⟨h.section_loc, h.symbol_loc⟩
  reserve past c name _ h :=
    ⟨fun other => (congrArg _ (declaration?_reserve c name other)).trans (h.section_loc other),
      fun command => (congrArg (fun m => (OrderedMap.find? m command).map Symbol.loc)
        (reserve_frame c name).1).trans (h.symbol_loc command)⟩
  link past c _ h :=
    ⟨fun other => (congrArg _ (declaration?_link c other)).trans (h.section_loc other),
      h.symbol_loc⟩

end Catalogue

/-! ## Failing pulls of a run -/

namespace Reader

/-- The next pull of `r` fails with `e` and leaves everything as it was but for warnings; `past` is
what came before, in all files. -/
structure FailsIntact (past : List ItemGroup) (r : Reader) (e : ReadError) : Prop where
  intact : r.catalogue.Intact r.next.2.catalogue
  /-- All later pulls give nothing and change nothing. -/
  later : ∀ n, (r.next.2.pulled n).next = (none, r.next.2)
  /-- What is reported as the earlier place of a section is where it was declared first, -/
  section_earlier : ∀ name loc earlier, e = .duplicateSection name loc earlier →
    (past.find? (·.section? = some name)).map ItemGroup.loc = some earlier
  /-- and that of a symbol is where it was defined first. -/
  symbol_earlier : ∀ command loc earlier, e = .duplicateSymbol command loc earlier →
    (past.find? (·.command? = some command)).map ItemGroup.loc = some earlier

/-- **A pull that fails leaves everything as it was**, whatever was done before and whichever pull
of the text it is. -/
theorem failsIntact_of_error (knownTags : List Text) (operations : List Catalogue.Operation)
    (file text : Text) (n : Nat) {r : Reader} {e : ReadError}
    (hr : r = (start ((Catalogue.new knownTags).run operations) (Token.stream file text)).pulled n)
    (he : r.next.1 = some (.error e)) :
    r.FailsIntact
      ((Catalogue.new knownTags).history (operations ++ [.read file text (some n)])) e := by
  have hfailed : r.failed = false := by
    by_contra h
    rw [next_of_finished (.inl (by simpa using h))] at he
    cases he
  -- nothing has failed yet, so the failing group is one of the stream
  have hgroups : r.groups <:+ ofItems (Token.stream file text) := by
    rw [hr] at hfailed ⊢
    exact groups_pulled_suffix rfl hfailed
  have hlocated := Catalogue.historyInvariant_located.run knownTags
    (operations ++ [.read file text (some n)])
  rw [Catalogue.run_append] at hlocated
  -- what the text gave before the failing pull is a run of its own
  have hcatalogue : ((Catalogue.new knownTags).run operations).run [.read file text (some n)] =
      r.catalogue := by
    rw [hr, ← reader_take]
    rfl
  rw [hcatalogue] at hlocated
  obtain ⟨hintact, hexplains⟩ := (pull_next hfailed).intact he fun g hg =>
    fromStream_of_mem (hgroups.subset hg)
  have hnext : r.next.2.next = (none, r.next.2) := next_of_ended (by simp [he])
  refine ⟨hintact, fun m => ?_, ?_, ?_⟩
  · rw [pulled_of_next_eq hnext, hnext]
  · intro name loc earlier heq
    rw [← hlocated.section_loc]
    exact hexplains.section_loc name loc earlier heq
  · intro command loc earlier heq
    rw [← hlocated.symbol_loc]
    exact hexplains.symbol_loc command loc earlier heq

/-- A section whose name is reserved before one file declares it. -/
def reservedThenDeclared : List Catalogue.Operation :=
  [.reserve "s", .read "a.tex" "%:section: s : S\n" none]

/-- A text that declares it again, behind a block without a head. -/
def declaredAgain : Text := "plain\n%:x: y\n%:section: s : T\n"

/-- The reader of that text behind its first line. -/
def beforeDeclaredAgain : Reader :=
  (start ((Catalogue.new []).run reservedThenDeclared)
    (Token.stream "b.tex" declaredAgain)).pulled 1

/-- What it is refused for. -/
def againError : ReadError :=
  .duplicateSection "s" ⟨"b.tex", 3, "%:section: s : T"⟩ ⟨"a.tex", 1, "%:section: s : S"⟩

theorem failsIntact_declaredAgain :
    beforeDeclaredAgain.next.1 = some (.error againError) ∧
    beforeDeclaredAgain.FailsIntact
      ((Catalogue.new []).history (reservedThenDeclared ++ [.read "b.tex" declaredAgain (some 1)]))
      againError := by
  have herror : beforeDeclaredAgain.next.1 = some (.error againError) := by decide +kernel
  exact ⟨herror, failsIntact_of_error [] reservedThenDeclared "b.tex" declaredAgain 1 rfl herror⟩

end Reader

end TexSymbols

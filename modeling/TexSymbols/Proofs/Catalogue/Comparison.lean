import TexSymbols.Proofs.Catalogue.Failure
import TexSymbols.Proofs.Reader.Alike
import TexSymbols.Proofs.Reader.Transcript

/-!
# Two readings side by side

* `Congruence` — progresses that are so related that the operations of a reader lead to related
  ones and answer alike.
* `Congruence.read` — then so does reading groups alike; `Congruence.take` — and any number of
  pulls.
* `Steady` — the case of one text; `Steady.read` — readings of the text answer the same.
* `Catalogue.answers`, `Catalogue.attributeBlocks` — what the readings of a run answer, and what
  they take; `Steady.runsAlike` — runs with the same readings do the same.
-/

namespace TexSymbols

open ItemGroup

variable {R : Location → Location → Prop} {S T : Text → Location → Location → Prop}
  {P : Progress → Progress → Prop} {p p' : Progress}

/-- Progresses in the relation `P` that no reader can tell apart, but for locations: `R` relates
those that are read from now on, `S` and `T` those of sections and symbols that are there. -/
structure Congruence (R : Location → Location → Prop) (S T : Text → Location → Location → Prop)
    (P : Progress → Progress → Prop) : Prop where
  current_eq : ∀ {p p'}, P p p' → p'.current = p.current
  declaration : ∀ {p p'}, P p p' → ∀ name, Option.Rel (Declaration.Alike (S name))
    (p.catalogue.declaration? name) (p'.catalogue.declaration? name)
  symbol : ∀ {p p'}, P p p' → ∀ command, Option.Rel (fun s s' => T command s.loc s'.loc)
    (p.catalogue.symbols.find? command) (p'.catalogue.symbols.find? command)
  warn : ∀ {p p' ws ws'}, P p p' → List.Forall₂ (Warning.Alike R) ws ws' →
    P (p.warn ws) (p'.warn ws')
  /-- The vocabulary matters for a run of blocks only. -/
  run : ∀ {p p' run run'}, P p p' → List.Forall₂ (Block.Alike R) run run' →
    P (p.warn (runWarnings p.catalogue.knownTags run))
      (p'.warn (runWarnings p'.catalogue.knownTags run'))
  declare : ∀ {p p' name d d' c c'}, P p p' → Declaration.Alike R d d' →
    p.catalogue.declare name d = .ok c → p'.catalogue.declare name d' = .ok c' →
    P ⟨c, some name⟩ ⟨c', some name⟩
  register : ∀ {p p' owner l l'} {d : Definition} {own nomenclature}, P p p' → R l l' →
    p.current = some owner → p.catalogue.symbols.find? d.command = none →
    p'.catalogue.symbols.find? d.command = none →
    P ⟨p.catalogue.register (p.symbol owner d l own nomenclature), p.current⟩
      ⟨p'.catalogue.register (p'.symbol owner d l' own nomenclature), p'.current⟩
  /-- At the end of a text no section is current. -/
  finish : ∀ {p p'}, P p p' → P ⟨p.catalogue, none⟩ ⟨p'.catalogue, none⟩

/-- Two transcripts that differ in related locations only, with related ends. -/
structure Transcript.Alike (R : Location → Location → Prop)
    (S T : Text → Location → Location → Prop) (P : Progress → Progress → Prop)
    (t t' : Transcript) : Prop where
  events : List.Forall₂ (Event.Alike R) t.events t'.events
  error : Option.Rel (ReadError.Alike R S T) t.error t'.error
  attributeBlocks : List.Forall₂ (Block.Alike R) t.attributeBlocks t'.attributeBlocks
  progress : P t.progress t'.progress

/-- A name is declared in both catalogues or in none, and refused accordingly. -/
theorem Catalogue.declare_alike {c c' : Catalogue} {name : Text}
    (h : Option.Rel (Declaration.Alike R) (c.declaration? name) (c'.declaration? name))
    (d d' : Declaration) :
    (∃ e e', R e e' ∧ c.declare name d = .error (.duplicateSection name d.loc e) ∧
      c'.declare name d' = .error (.duplicateSection name d'.loc e')) ∨
    ∃ q q', c.declare name d = .ok q ∧ c'.declare name d' = .ok q' := by
  generalize hknown : c.declaration? name = o at h
  generalize hknown' : c'.declaration? name = o' at h
  cases h with
  | @some earlier earlier' halike =>
    obtain @⟨_, _, e, e', he⟩ := halike
    exact .inl ⟨e, e', he, declare_of_declared hknown d, declare_of_declared hknown' d'⟩
  | none =>
    have hfree : ¬ c.Declares name := by simp [Declares, hknown]
    have hfree' : ¬ c'.Declares name := by simp [Declares, hknown']
    obtain ⟨q, hq⟩ := exists_declare_eq_ok_iff (d := d).2 hfree
    obtain ⟨q', hq'⟩ := exists_declare_eq_ok_iff (d := d').2 hfree'
    exact .inr ⟨q, q', hq, hq'⟩

/-- What is inherited does not depend on locations. -/
theorem Catalogue.inherited_alike {c c' : Catalogue} {name : Text}
    (h : Option.Rel (Declaration.Alike R) (c.declaration? name) (c'.declaration? name)) :
    Reader.inherited c' name = Reader.inherited c name := by
  rw [inherited_eq, inherited_eq, declaredAttributes, declaredAttributes]
  generalize c.declaration? name = o at h
  generalize c'.declaration? name = o' at h
  cases h with
  | some hd =>
    obtain ⟨-⟩ := hd
    rfl
  | none => rfl

namespace Congruence

/-! ## One group -/

theorem inherited_eq (h : Congruence R S T P) (hp : P p p') (name : Text) :
    Reader.inherited p'.catalogue name = Reader.inherited p.catalogue name :=
  Catalogue.inherited_alike (h.declaration hp name)

/-- A section tag is refused in both or in none. -/
theorem readSection (h : Congruence R S T P) (hp : P p p') {b b' : Block} (hb : b.Alike R b')
    {run run' : List Block} (hrun : List.Forall₂ (Block.Alike R) run run') :
    Option.Rel (ReadError.Alike R S T) (p.readSection b run).1 (p'.readSection b' run').1 ∧
      P (p.readSection b run).2 (p'.readSection b' run').2 := by
  obtain @⟨tag, lines, l, l', hl⟩ := hb
  have hcontent : Block.content ⟨tag, lines, l'⟩ = Block.content ⟨tag, lines, l⟩ := rfl
  have hwarned := h.run hp hrun
  rw [Progress.readSection, Progress.readSection, hcontent, attributesOf_alike hrun]
  cases hhead : sectionHead? (Block.content ⟨tag, lines, l⟩) with
  | none => exact ⟨.some (.malformedSection hl), hp⟩
  | some head =>
    obtain ⟨name, description⟩ := head
    obtain ⟨e, e', he, hc, hc'⟩ | ⟨c, c', hc, hc'⟩ :=
      Catalogue.declare_alike (h.declaration hwarned name)
        ⟨description, attributesOf run, l⟩ ⟨description, attributesOf run, l'⟩
    · simp only [hc, hc']
      exact ⟨.some (.duplicateSection hl he), hwarned⟩
    · simp only [hc, hc']
      exact ⟨.none, h.declare hwarned (.mk hl) hc hc'⟩

theorem define (h : Congruence R S T P) (hp : P p p') {owner : Text} {d : Definition}
    {l l' : Location} {own : Attributes} {nomenclature : Option NomenclatureEntry} (hl : R l l')
    (howner : p.current = some owner) (hnew : p.catalogue.symbols.find? d.command = none)
    (hnew' : p'.catalogue.symbols.find? d.command = none) :
    P (p.define owner d l own nomenclature) (p'.define owner d l' own nomenclature) := by
  rw [Progress.define, Progress.define, h.inherited_eq hp]
  exact h.register (h.warn hp (disagreements_alike hl ..)) hl howner hnew hnew'

/-- A definition is refused in both or in none. -/
theorem readDefinition (h : Congruence R S T P) (hp : P p p') (d : Definition) {l l' : Location}
    (hl : R l l') {run run' : List Block} (hrun : List.Forall₂ (Block.Alike R) run run') :
    Option.Rel (ReadError.Alike R S T) (p.readDefinition d l run).1
        (p'.readDefinition d l' run').1 ∧
      P (p.readDefinition d l run).2 (p'.readDefinition d l' run').2 := by
  have hwarned := h.run hp hrun
  have hsymbol := h.symbol hp d.command
  have hentry : Progress.entryOf run' = Progress.entryOf run := by
    rw [Progress.entryOf, Progress.entryOf, attributesOf_alike hrun]
  rw [Progress.readDefinition, Progress.readDefinition, h.current_eq hp, hentry,
    attributesOf_alike hrun]
  cases howner : p.current with
  | none => exact ⟨.some (.noSection hl), hp⟩
  | some owner =>
    simp only [Progress.warn_symbols]
    generalize hfind : p.catalogue.symbols.find? d.command = o at hsymbol
    generalize hfind' : p'.catalogue.symbols.find? d.command = o' at hsymbol
    cases NomenclatureEntry.read? (Progress.entryOf run) with
    | none => exact ⟨.some (.malformedNomenclature hl), hwarned⟩
    | some nomenclature =>
      cases hsymbol with
      | some hearlier => exact ⟨.some (.duplicateSymbol hl hearlier), hwarned⟩
      | none => exact ⟨.none, h.define hwarned hl howner hfind hfind'⟩

/-- **Groups alike are read alike.** -/
theorem read (h : Congruence R S T P) (hp : P p p') {g g' : ItemGroup} (hg : g.Alike R g') :
    Option.Rel (ReadError.Alike R S T) (g.read p).1 (g'.read p').1 ∧
      P (g.read p).2 (g'.read p').2 := by
  obtain ⟨first, run⟩ := g
  obtain ⟨first', run'⟩ := g'
  obtain ⟨hfirst, hrun⟩ := hg
  cases hfirst with
  | unterminated hl => exact ⟨.some (.unterminatedTag hl), hp⟩
  | passthrough => exact ⟨.none, hp⟩
  | definition hl => exact h.readDefinition hp _ hl hrun
  | @block b b' hb =>
    have htag : b'.tag = b.tag := by
      obtain ⟨-⟩ := hb
      rfl
    have hfloating : List.Forall₂ (Warning.Alike R) [.floatingTag b.tag b.loc]
        [.floatingTag b.tag b'.loc] := by
      obtain ⟨hl⟩ := hb
      exact .cons (.floatingTag hl) .nil
    simp only [ItemGroup.read, htag]
    by_cases hdeclares : b.tag = Tag.declares
    · rw [if_pos hdeclares, if_pos hdeclares]
      exact h.readSection hp hb hrun
    · rw [if_neg hdeclares, if_neg hdeclares]
      exact ⟨.none, h.warn hp hfloating⟩

theorem attributeBlocks (h : Congruence R S T P) (hp : P p p') {g g' : ItemGroup}
    (hg : g.Alike R g') :
    List.Forall₂ (Block.Alike R) (g.attributeBlocks p) (g'.attributeBlocks p') := by
  obtain ⟨first, run⟩ := g
  obtain ⟨first', run'⟩ := g'
  obtain ⟨hfirst, hrun⟩ := hg
  cases hfirst with
  | unterminated => exact .nil
  | passthrough => exact .nil
  | definition =>
    simp only [ItemGroup.attributeBlocks, h.current_eq hp]
    split
    · exact hrun
    · exact .nil
  | @block b b' hb =>
    have hhead : b'.tag = b.tag ∧ b'.content = b.content := by
      obtain ⟨-⟩ := hb
      exact ⟨rfl, rfl⟩
    simp only [ItemGroup.attributeBlocks, hhead]
    split
    · exact hrun
    · exact .nil

/-! ## Any number of pulls -/

/-- **Groups alike are read alike up to any number of events.** -/
theorem take (h : Congruence R S T P) (hp : P p p') {groups groups' : List ItemGroup}
    (hgroups : List.Forall₂ (ItemGroup.Alike R) groups groups') (n : Nat) :
    (Progress.take groups n p).Alike R S T P (Progress.take groups' n p') := by
  induction hgroups generalizing n p p' with
  | nil => exact ⟨.nil, .none, .nil, hp⟩
  | @cons g g' groups groups' hg _ ih =>
    cases n with
    | zero => exact ⟨.nil, .none, .nil, hp⟩
    | succ n =>
      have hevent := forall₂_toList (event?_alike hg)
      have hblocks := h.attributeBlocks hp hg
      obtain ⟨herror, hprogress⟩ := h.read hp hg
      -- either both groups fail or none of them does
      rcases hread : g.read p with ⟨_ | e, q⟩ <;> rcases hread' : g'.read p' with ⟨_ | e', q'⟩ <;>
        rw [hread, hread'] at herror hprogress
      · obtain ⟨hevents, hrest, hmore, hend⟩ := ih hprogress (n + 1 - g.event?.toList.length)
        rw [Progress.take_cons_of_ok hread, Progress.take_cons_of_ok hread', ← hevent.length_eq]
        exact ⟨List.rel_append hevent hevents, hrest, List.rel_append hblocks hmore, hend⟩
      · cases herror
      · cases herror
      · rw [Progress.take_cons_of_error hread, Progress.take_cons_of_error hread']
        exact ⟨.nil, herror, hblocks, hprogress⟩

end Congruence

/-! ## The same text -/

/-- A group of a stream is like itself: the only error of a stream is a tag without an end. -/
theorem ItemGroup.FromStream.alike_self {g : ItemGroup} (h : g.FromStream) :
    g.Alike (· = ·) g := by
  obtain ⟨first, run⟩ := g
  refine ⟨?_, List.forall₂_same.2 fun b _ => .mk rfl⟩
  rcases first with e | ⟨d, loc⟩ | b | ⟨line, loc⟩
  · obtain ⟨loc, rfl⟩ := h e rfl
    exact .unterminated rfl
  · exact .definition rfl
  · exact .block (.mk rfl)
  · exact .passthrough rfl

/-- Progresses in the relation `P` that a reader of one text cannot tell apart at all. -/
structure Steady (P : Progress → Progress → Prop) : Prop where
  current_eq : ∀ {p p'}, P p p' → p'.current = p.current
  declaration?_eq : ∀ {p p'}, P p p' →
    ∀ name, p'.catalogue.declaration? name = p.catalogue.declaration? name
  symbol_loc_eq : ∀ {p p'}, P p p' → ∀ command,
    (p'.catalogue.symbols.find? command).map Symbol.loc =
      (p.catalogue.symbols.find? command).map Symbol.loc
  warn : ∀ {p p'}, P p p' → ∀ ws, P (p.warn ws) (p'.warn ws)
  run : ∀ {p p'}, P p p' → ∀ run, P (p.warn (runWarnings p.catalogue.knownTags run))
    (p'.warn (runWarnings p'.catalogue.knownTags run))
  declare : ∀ {p p' name d c c'}, P p p' → p.catalogue.declare name d = .ok c →
    p'.catalogue.declare name d = .ok c' → P ⟨c, some name⟩ ⟨c', some name⟩
  register : ∀ {p p' owner l} {d : Definition} {own nomenclature}, P p p' →
    p.current = some owner → p.catalogue.symbols.find? d.command = none →
    p'.catalogue.symbols.find? d.command = none →
    P ⟨p.catalogue.register (p.symbol owner d l own nomenclature), p.current⟩
      ⟨p'.catalogue.register (p'.symbol owner d l own nomenclature), p'.current⟩
  finish : ∀ {p p'}, P p p' → P ⟨p.catalogue, none⟩ ⟨p'.catalogue, none⟩

/-- What two readings of a text that answer the same have in common. -/
structure Reading.Agrees (P : Progress → Progress → Prop) (t t' : Reading) : Prop where
  events_eq : t'.events = t.events
  error_eq : t'.error = t.error
  progress : P ⟨t.reader.catalogue, none⟩ ⟨t'.reader.catalogue, none⟩

namespace Steady

theorem congruence (h : Steady P) :
    Congruence (· = ·) (fun _ => (· = ·)) (fun _ => (· = ·)) P where
  current_eq := h.current_eq
  declaration {p p'} hp name := by
    rw [h.declaration?_eq hp]
    cases p.catalogue.declaration? name with
    | some d => exact .some (.mk rfl)
    | none => exact .none
  symbol hp command := optionRel_of_map_eq (h.symbol_loc_eq hp command)
  warn hp hws := eq_of_forall₂ Warning.alike_eq hws ▸ h.warn hp _
  run hp hrun := eq_of_forall₂ Block.alike_eq hrun ▸ h.run hp _
  declare hp hd hc hc' := h.declare hp hc (Declaration.alike_eq hd ▸ hc')
  register hp hl howner hnew hnew' := hl ▸ h.register hp howner hnew hnew'
  finish := h.finish

variable {c c' : Catalogue}

theorem transcript (h : Steady P) (hc : P ⟨c, none⟩ ⟨c', none⟩) (file text : Text)
    (pulls : Option Nat) : (c.transcript file text pulls).Alike (· = ·) (fun _ => (· = ·))
      (fun _ => (· = ·)) P (c'.transcript file text pulls) :=
  h.congruence.take hc (List.forall₂_same.2 fun _ hg => (fromStream_of_mem hg).alike_self) _

/-- **Readings of a text in related catalogues answer the same.** -/
theorem read (h : Steady P) (hc : P ⟨c, none⟩ ⟨c', none⟩) (file text : Text)
    (pulls : Option Nat) : (c.read file text pulls).Agrees P (c'.read file text pulls) := by
  obtain ⟨hevents, herror, hprogress⟩ := c.matches_transcript file text pulls
  obtain ⟨hevents', herror', hprogress'⟩ := c'.matches_transcript file text pulls
  obtain ⟨hv, he, -, hp⟩ := h.transcript hc file text pulls
  refine ⟨?_, ?_, ?_⟩
  · rw [hevents, hevents', eq_of_forall₂ Event.alike_eq hv]
  · rw [herror, herror', eq_of_optionRel ReadError.alike_eq he]
  · rw [← hprogress, ← hprogress'] at hp
    exact h.finish hp

end Steady

/-! ## Runs -/

namespace Catalogue

/-- Whether the operation links the hierarchy. -/
def Operation.links : Operation → Bool
  | .link => true
  | _ => false

/-- What a run answers: the events of each reading and its error, if it has one. -/
def answers (c : Catalogue) : List Operation → List (List Event × Option ReadError)
  | [] => []
  | .read file text pulls :: operations =>
    let t := c.read file text pulls
    (t.events, t.error) :: t.reader.catalogue.answers operations
  | op :: operations => (c.apply op).answers operations

/-- The blocks that a run takes as attributes, in order. -/
def attributeBlocks (c : Catalogue) : List Operation → List Block
  | [] => []
  | .read file text pulls :: operations =>
    (c.transcript file text pulls).attributeBlocks ++
      (c.read file text pulls).reader.catalogue.attributeBlocks operations
  | op :: operations => (c.apply op).attributeBlocks operations

/-- What two runs that answer the same have in common. -/
structure RunsAlike (P : Progress → Progress → Prop) (c c' : Catalogue)
    (operations operations' : List Operation) : Prop where
  answers_eq : c'.answers operations' = c.answers operations
  attributeBlocks_eq : c'.attributeBlocks operations' = c.attributeBlocks operations
  progress : P ⟨c.run operations, none⟩ ⟨c'.run operations', none⟩

/-- An operation that answers nothing and takes nothing, whether the first run does it or not. -/
theorem RunsAlike.cons {c c' : Catalogue} {keep : Operation → Bool} {op : Operation}
    {operations : List Operation}
    (hanswers : ∀ q rest, answers q (op :: rest) = (q.apply op).answers rest)
    (hblocks : ∀ q rest, attributeBlocks q (op :: rest) = (q.apply op).attributeBlocks rest)
    (h : RunsAlike P (c.run ([op].filter keep)) (c'.apply op) (operations.filter keep)
      operations) :
    RunsAlike P c c' ((op :: operations).filter keep) (op :: operations) := by
  cases hkeep : keep op with
  | true =>
    rw [List.filter_cons_of_pos hkeep] at h ⊢
    refine ⟨?_, ?_, h.progress⟩
    · rw [hanswers, hanswers, h.answers_eq]
      rfl
    · rw [hblocks, hblocks, h.attributeBlocks_eq]
      rfl
  | false =>
    rw [List.filter_cons_of_neg (by simp [hkeep])] at h ⊢
    refine ⟨?_, ?_, h.progress⟩
    · rw [hanswers, h.answers_eq]
      rfl
    · rw [hblocks, h.attributeBlocks_eq]
      rfl

end Catalogue

open Catalogue

/-- **Runs with the same readings answer the same**, if the other operations keep the relation,
whether both runs do them or only the second one. -/
theorem Steady.runsAlike (h : Steady P) {keep : Operation → Bool}
    (hread : ∀ file text pulls, keep (.read file text pulls) = true) {operations : List Operation}
    (hreserve : ∀ {c c' name}, .reserve name ∈ operations → P ⟨c, none⟩ ⟨c', none⟩ →
      P ⟨c.run ([.reserve name].filter keep), none⟩ ⟨c'.reserve name, none⟩)
    (hlink : ∀ {c c'}, .link ∈ operations → P ⟨c, none⟩ ⟨c', none⟩ →
      P ⟨c.run ([.link].filter keep), none⟩ ⟨c'.link, none⟩)
    {c c' : Catalogue} (hc : P ⟨c, none⟩ ⟨c', none⟩) :
    RunsAlike P c c' (operations.filter keep) operations := by
  induction operations generalizing c c' with
  | nil => exact ⟨rfl, rfl, hc⟩
  | cons op operations ih =>
    have hrest := @ih (fun hmem => hreserve (List.mem_cons_of_mem _ hmem))
      (fun hmem => hlink (List.mem_cons_of_mem _ hmem))
    cases op with
    | read file text pulls =>
      obtain ⟨hevents, herror, hend⟩ := h.read hc file text pulls
      have hblocks := eq_of_forall₂ Block.alike_eq (h.transcript hc file text pulls).attributeBlocks
      obtain ⟨hanswers, hmore, hprogress⟩ := hrest hend
      rw [List.filter_cons_of_pos (hread file text pulls)]
      refine ⟨?_, ?_, hprogress⟩
      · rw [answers, answers, hevents, herror, hanswers]
      · rw [Catalogue.attributeBlocks, Catalogue.attributeBlocks, hblocks, hmore]
    | reserve name =>
      have hnext := hrest (hreserve List.mem_cons_self hc)
      exact hnext.cons (fun _ _ => rfl) fun _ _ => rfl
    | link =>
      have hnext := hrest (hlink List.mem_cons_self hc)
      exact hnext.cons (fun _ _ => rfl) fun _ _ => rfl

end TexSymbols

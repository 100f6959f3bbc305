import TexSymbols.Proofs.Catalogue.Operations
import TexSymbols.Proofs.Reader.Groups
import TexSymbols.Proofs.Text.Split

/-!
# Reading group by group

What a reader has to make of the groups of a stream, said without a cursor.

* `Progress` — a catalogue and the section that definitions belong to.
* `ItemGroup.read` — what reading one group makes of a progress, and its error if it has one.
* `ItemGroup.event?` — the event that a group gives.
* `ItemGroup.Step` — the four ways in which a group is read; `read_eq_some` — a failing group only
  leaves warnings.
* `Reads` — reading one group after the other without an error.
-/

namespace TexSymbols

/-- What reading has come to: all that was collected, and the section that definitions belong to. -/
structure Progress where
  catalogue : Catalogue
  current : Option Text

/-- The name in a section tag: what stands before the first colon of its content. -/
def Block.sectionName (b : Block) : Text := Text.trim (b.content.takeWhile (· ≠ ':'))

namespace Progress

def warn (p : Progress) (ws : List Warning) : Progress :=
  { p with catalogue := p.catalogue.warn ws }

@[simp] theorem warn_symbols (p : Progress) (ws : List Warning) :
    (p.warn ws).catalogue.symbols = p.catalogue.symbols := rfl

@[simp] theorem warn_sections (p : Progress) (ws : List Warning) :
    (p.warn ws).catalogue.sections = p.catalogue.sections := rfl

theorem warn_declaration? (p : Progress) (ws : List Warning) (name : Text) :
    (p.warn ws).catalogue.declaration? name = p.catalogue.declaration? name := rfl

/-- The symbol that a definition makes in the section `owner`. -/
def symbol (p : Progress) (owner : Text) (d : Definition) (loc : Location) (own : Attributes)
    (nomenclature : Option NomenclatureEntry) : Symbol :=
  { d with
    synonyms := []
    owner := owner
    sample := own.find? Tag.sample
    nomenclature := nomenclature
    attributes := (Reader.inherited p.catalogue owner).inherit own
    loc := loc
    order := p.catalogue.nextOrder }

/-- The progress after a definition with the given attributes. -/
def define (p : Progress) (owner : Text) (d : Definition) (loc : Location) (own : Attributes)
    (nomenclature : Option NomenclatureEntry) : Progress :=
  let p := p.warn ((Reader.inherited p.catalogue owner).disagreements d.command loc own)
  { p with catalogue := p.catalogue.register (p.symbol owner d loc own nomenclature) }

/-- Read a section tag with its run. -/
def readSection (p : Progress) (b : Block) (run : List Block) : Option ReadError × Progress :=
  match sectionHead? b.content with
  | none => (some (.malformedSection b.content b.loc), p)
  | some (name, description) =>
    let p := p.warn (runWarnings p.catalogue.knownTags run)
    match p.catalogue.declare name ⟨description, attributesOf run, b.loc⟩ with
    | .error e => (some e, p)
    | .ok c => (none, ⟨c, some name⟩)

/-- The value that the run gives for the entry of the nomenclature; empty if it gives none. -/
def entryOf (run : List Block) : Text := ((attributesOf run).find? Tag.entry).getD []

/-- Read a definition with its run. -/
def readDefinition (p : Progress) (d : Definition) (loc : Location) (run : List Block) :
    Option ReadError × Progress :=
  match p.current with
  | none => (some (.noSection loc), p)
  | some owner =>
    let p := p.warn (runWarnings p.catalogue.knownTags run)
    match NomenclatureEntry.read? (entryOf run), p.catalogue.symbols.find? d.command with
    | none, _ => (some (.malformedNomenclature (entryOf run) loc), p)
    | some _, some earlier => (some (.duplicateSymbol d.command loc earlier.loc), p)
    | some nomenclature, none => (none, p.define owner d loc (attributesOf run) nomenclature)

end Progress

namespace ItemGroup

/-- Read a group: its error, if it has one, and the progress after it. -/
def read (p : Progress) (g : ItemGroup) : Option ReadError × Progress :=
  match g.first with
  | .error e => (some e, p)
  | .ok (.passthrough ..) => (none, p)
  | .ok (.definition d loc) => p.readDefinition d loc g.run
  | .ok (.block b) =>
    if b.tag = Tag.declares then p.readSection b g.run
    else (none, p.warn [.floatingTag b.tag b.loc])

/-- The event that reading the group gives, if it succeeds. -/
def event? (g : ItemGroup) : Option Event :=
  match g.first with
  | .error _ => none
  | .ok (.passthrough line loc) => some (.passthrough line loc)
  | .ok (.definition d _) => some (.defined d.command)
  | .ok (.block b) => if b.tag = Tag.declares then some (.declared b.sectionName) else none

end ItemGroup

/-! ## Section heads -/

theorem sectionHead?_eq_some_iff {content name description : Text} :
    sectionHead? content = some (name, description) ↔
      ∃ before after, content = before ++ ':' :: after ∧ ':' ∉ before ∧ ':' ∉ after ∧
        Text.trim before ≠ [] ∧
        name = Text.trim before ∧ description = Text.trim after := by
  unfold sectionHead?
  cases hs : Text.splitOnce ':' content with
  | none =>
    have hn := Text.splitOnce_eq_none_iff.1 hs
    constructor
    · intro h
      cases h
    · rintro ⟨before, after, rfl, -⟩
      simp at hn
  | some p =>
    obtain ⟨before, after⟩ := p
    obtain ⟨rfl, hb⟩ := Text.splitOnce_eq_some_iff.1 hs
    simp only
    constructor
    · intro h
      split at h
      · cases h
      · rename_i hok
        rw [not_or] at hok
        cases h
        exact ⟨before, after, rfl, hb, hok.1, hok.2, rfl, rfl⟩
    · rintro ⟨before', after', heq, hb', ha', hne, rfl, rfl⟩
      have := Text.splitOnce_append hb' after'
      rw [← heq, Text.splitOnce_append hb] at this
      cases this
      rw [if_neg (not_or.2 ⟨ha', hne⟩)]

/-- The name that a section tag declares is the one before its colon. -/
theorem sectionName_eq {b : Block} {name description : Text}
    (h : sectionHead? b.content = some (name, description)) : b.sectionName = name := by
  obtain ⟨before, after, hc, hb, -, -, rfl, -⟩ := sectionHead?_eq_some_iff.1 h
  rw [Block.sectionName, hc, Text.takeWhile_append hb]

/-! ## One group -/

namespace ItemGroup

variable {p p' : Progress} {g : ItemGroup}

/-- The ways in which a group is read without an error. -/
inductive Step (p : Progress) (g : ItemGroup) : Progress → Prop
  /-- An ordinary line changes nothing. -/
  | passthrough {line : Text} {loc : Location} :
      g.first = .ok (.passthrough line loc) → Step p g p
  /-- A block without a head leaves a warning. -/
  | floating {b : Block} :
      g.first = b.item → b.tag ≠ Tag.declares → Step p g (p.warn [.floatingTag b.tag b.loc])
  /-- A section tag declares a section. -/
  | declared {b : Block} {description : Text} {c : Catalogue} :
      g.first = b.item → b.tag = Tag.declares →
        sectionHead? b.content = some (b.sectionName, description) →
      (p.warn (runWarnings p.catalogue.knownTags g.run)).catalogue.declare b.sectionName
        ⟨description, attributesOf g.run, b.loc⟩ = .ok c →
      Step p g ⟨c, some b.sectionName⟩
  /-- A definition makes a symbol of the current section. -/
  | defined {d : Definition} {loc : Location} {owner : Text}
    {nomenclature : Option NomenclatureEntry} :
      g.first = .ok (.definition d loc) → p.current = some owner →
      NomenclatureEntry.read? (Progress.entryOf g.run) = some nomenclature →
      p.catalogue.symbols.find? d.command = none →
      Step p g ((p.warn (runWarnings p.catalogue.knownTags g.run)).define owner d loc
        (attributesOf g.run) nomenclature)

theorem step_of_read (h : g.read p = (none, p')) : g.Step p p' := by
  obtain ⟨first, run⟩ := g
  rcases first with e | ⟨d, loc⟩ | b | ⟨line, loc⟩
  · simp [read] at h
  · simp only [read, Progress.readDefinition] at h
    split at h
    · simp at h
    · rename_i owner howner
      split at h
      · simp at h
      · simp at h
      · rename_i nomenclature hn hf
        cases h
        exact .defined rfl howner hn hf
  · simp only [read] at h
    split at h
    · rename_i htag
      simp only [Progress.readSection] at h
      split at h
      · simp at h
      · rename_i name description hhead
        split at h
        · simp at h
        · rename_i c hc
          cases h
          have hname := sectionName_eq hhead
          subst hname
          exact .declared rfl htag hhead hc
    · rename_i htag
      cases h
      exact .floating rfl htag
  · cases h
    exact .passthrough rfl

/-- **A failing group only leaves the warnings about its run**, and its error is about its first
item. -/
theorem read_eq_some {e : ReadError} (h : g.read p = (some e, p')) :
    e.loc = g.loc ∧ (p' = p ∨ p' = p.warn (runWarnings p.catalogue.knownTags g.run)) := by
  obtain ⟨first, run⟩ := g
  rcases first with e' | ⟨d, loc⟩ | b | ⟨line, loc⟩
  · cases h
    exact ⟨rfl, .inl rfl⟩
  · simp only [read, Progress.readDefinition] at h
    split at h
    · cases h
      exact ⟨rfl, .inl rfl⟩
    · split at h
      · cases h
        exact ⟨rfl, .inr rfl⟩
      · cases h
        exact ⟨rfl, .inr rfl⟩
      · cases h
  · simp only [read] at h
    split at h
    · simp only [Progress.readSection] at h
      split at h
      · cases h
        exact ⟨rfl, .inl rfl⟩
      · split at h
        · rename_i hd
          cases h
          obtain ⟨earlier, -, rfl⟩ := Catalogue.declare_eq_error hd
          exact ⟨rfl, .inr rfl⟩
        · cases h
    · cases h
  · cases h

end ItemGroup

/-! ## Many groups -/

/-- Reading groups one after the other, each without an error, leads from one progress to
another. -/
inductive Reads : Progress → List ItemGroup → Progress → Prop
  | nil (p : Progress) : Reads p [] p
  | cons {p p₁ p' : Progress} {g : ItemGroup} {groups : List ItemGroup} :
      g.read p = (none, p₁) → Reads p₁ groups p' → Reads p (g :: groups) p'

namespace Reads

variable {p p₁ p' : Progress} {groups later : List ItemGroup}

theorem append (h₁ : Reads p groups p₁) (h₂ : Reads p₁ later p') :
    Reads p (groups ++ later) p' := by
  induction h₁ with
  | nil => exact h₂
  | cons hg _ ih => exact .cons hg (ih h₂)

theorem split {g : ItemGroup} (h : Reads p (groups ++ g :: later) p') :
    ∃ p₁ p₂, Reads p groups p₁ ∧ g.read p₁ = (none, p₂) ∧ Reads p₂ later p' := by
  induction groups generalizing p with
  | nil =>
    cases h with
    | cons hg hlater => exact ⟨p, _, .nil p, hg, hlater⟩
  | cons g' groups ih =>
    cases h with
    | cons hg' hrest =>
      obtain ⟨p₁, p₂, hgroups, hg, hlater⟩ := ih hrest
      exact ⟨p₁, p₂, .cons hg' hgroups, hg, hlater⟩

/-- What is true of no group and is kept by one more group is true of all of them. -/
theorem induction {P : List ItemGroup → Progress → Prop} {before : List ItemGroup}
    (hstep : ∀ before g p p', P before p → g.read p = (none, p') → P (before ++ [g]) p')
    (hp : P before p) (h : Reads p groups p') : P (before ++ groups) p' := by
  induction h generalizing before with
  | nil => rwa [List.append_nil]
  | cons hg _ ih =>
    have := ih (hstep _ _ _ _ hp hg)
    rwa [List.append_assoc] at this

/-- What every group keeps, reading many of them keeps. -/
theorem invariant {P : Progress → Prop}
    (hstep : ∀ (g : ItemGroup) p p', g.read p = (none, p') → P p → P p') (hp : P p)
    (h : Reads p groups p') : P p' := by
  induction h with
  | nil => exact hp
  | cons hg _ ih => exact ih (hstep _ _ _ hg hp)

end Reads

end TexSymbols

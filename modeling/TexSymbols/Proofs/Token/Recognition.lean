import TexSymbols.Proofs.Tex.Layout
import TexSymbols.Proofs.Token.Partition

/-!
# Definition lines among the items of a text

* `HasLayout` — a line that is made like a definition line; `not_hasLayout_of_plainComment` — no
  comment line is.
* `Stretch.Recognised` — what the item of some lines has to do with the layout of the first.
* `DefinitionLines`, `definitionLines` — definition lines are recognised exactly, by `read` and in
  the items of every text.
-/

namespace TexSymbols

open Definition (Layout)

variable {file line : Text} {s : Stretch}

/-- The line is made like a definition line. -/
def HasLayout (line : Text) : Prop := ∃ l : Layout, l.Valid ∧ l.text = line

theorem hasLayout_iff : HasLayout line ↔ ∃ d, Definition.read line = .definition d := by
  simp only [HasLayout, Definition.read_eq_definition_iff]
  constructor
  · rintro ⟨l, hl, hline⟩
    exact ⟨l.definition, l, hl, hline, rfl⟩
  · rintro ⟨_, l, hl, hline, -⟩
    exact ⟨l, hl, hline⟩

theorem not_hasLayout_of_plainComment (h : PlainComment line) : ¬ HasLayout line := by
  obtain ⟨rest, hrest, -⟩ := h
  have hother : Definition.read line = .other := by
    refine Definition.read_eq_other fun r hr => ?_
    rw [hrest] at hr
    cases hr
  rw [hasLayout_iff, hother]
  rintro ⟨d, hd⟩
  cases hd

theorem ofLine_eq_definition_iff : LineKind.ofLine line = .definition ↔ HasLayout line := by
  rw [hasLayout_iff]
  constructor
  · intro h
    by_contra hnone
    rw [not_exists] at hnone
    cases htag : taggedRest? line with
    | none => rw [LineKind.ofLine_of_ordinary htag hnone] at h; cases h
    | some rest =>
      rw [LineKind.ofLine_of_tagged htag] at h
      split at h <;> cases h
  · rintro ⟨d, hd⟩
    exact LineKind.ofLine_of_definition hd

/-- What the item of some lines has to do with their layouts. -/
structure Stretch.Recognised (s : Stretch) : Prop where
  /-- The first line gives a definition exactly if it is made like one. -/
  definition_iff : (∃ d loc, s.item = .ok (.definition d loc)) ↔ HasLayout s.first
  /-- The definition is the one of the layout. -/
  definition_eq : ∀ d loc, s.item = .ok (.definition d loc) →
    ∃ l : Layout, l.Valid ∧ l.text = s.first ∧ l.definition = d
  /-- A line that is passed on is passed on as it stands. -/
  passthrough_eq : ∀ line loc, s.item = .ok (.passthrough line loc) → line = s.first
  /-- No further line is made like a definition. -/
  more : ∀ line ∈ s.more, ¬ HasLayout line

theorem Stretch.Sound.recognised (hs : s.Sound file) : s.Recognised where
  definition_iff := by
    rw [← ofLine_eq_definition_iff, ← hs.kind_eq]
    constructor
    · rintro ⟨d, loc, hitem⟩
      rw [hitem]
      rfl
    · intro hkind
      match hitem : s.item, hkind with
      | .ok (.definition d loc), _ => exact ⟨d, loc, rfl⟩
  definition_eq d loc hitem := by
    have hread := hs.fromLine
    rw [hitem] at hread
    exact Definition.read_eq_definition_iff.1 hread
  passthrough_eq line loc hitem := by
    have hkept := hs.fromLine
    rwa [hitem] at hkept
  more line hline := not_hasLayout_of_plainComment (hs.more_plain line hline)

/-- Definition lines are those that are made like one, and define what their parts say. -/
structure DefinitionLines : Prop where
  read_iff : ∀ line d, Definition.read line = .definition d ↔
    ∃ l : Layout, l.Valid ∧ l.text = line ∧ l.definition = d
  unique : ∀ l l' : Layout, l.Valid → l'.Valid → l.text = l'.text → l = l'
  /-- Every line of a text stands in a stretch of lines with an item that goes by its layout. -/
  stream : ∀ file text, ∃ stretches,
    Partition file 0 (Text.lines text) (Token.stream file text) stretches ∧
      ∀ s ∈ stretches, s.Recognised

/-- **Definition lines are recognised exactly**, whatever stands around them. -/
theorem definitionLines : DefinitionLines where
  read_iff _ _ := Definition.read_eq_definition_iff
  unique _ _ hl hl' h := Layout.unique hl hl' h
  stream file text := by
    obtain ⟨stretches, hstretches⟩ :=
      exists_partition file 0 (Text.lines text) fun _ hline => Text.notMem_of_mem_lines hline
    exact ⟨stretches, hstretches, fun s hs => (hstretches.sound s hs).recognised⟩

end TexSymbols

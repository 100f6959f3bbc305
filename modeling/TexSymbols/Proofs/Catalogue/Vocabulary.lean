import TexSymbols.Proofs.Catalogue.Comparison

/-!
# What the vocabulary decides

* `Catalogue.withKnown` — a catalogue with another vocabulary.
* `steady_sameButVocabulary` — a reader sees the vocabulary in warnings about unknown tags only.
* `Catalogue.WarnsOf` — warnings about unknown tags among given blocks; `Catalogue.warnsOf_run` —
  those of a run are about the blocks that it takes as attributes.
* `Catalogue.VocabularyOnly` — the difference between runs with two vocabularies;
  `Catalogue.vocabularyOnly` — it is the same for all operations.
-/

namespace TexSymbols

open ItemGroup

/-! ## Warnings about unknown tags -/

/-- Whether the warning says that a tag is not in the vocabulary. -/
def Warning.isUnknown : Warning → Bool
  | unknownTag .. => true
  | _ => false

/-- The warnings that say of blocks that their tags are not in the vocabulary. -/
def unknownAmong (known : List Text) (blocks : List Block) : List Warning :=
  (blocks.filter (·.tag ∉ known)).map fun b => .unknownTag b.tag b.loc

variable {known known' : List Text}

theorem unknownAmong_append (known : List Text) (blocks later : List Block) :
    unknownAmong known (blocks ++ later) =
      unknownAmong known blocks ++ unknownAmong known later := by
  rw [unknownAmong, List.filter_append, List.map_append]
  rfl

theorem isUnknown_warnings (known : List Text) (before : Attributes) (b : Block) :
    (b.warnings known before).filter Warning.isUnknown = unknownAmong known [b] := by
  have htwice : (if before.contains b.tag then [Warning.tagOverwritten b.tag b.loc]
      else []).filter Warning.isUnknown = [] := by split <;> rfl
  rw [Block.warnings, List.filter_append, htwice, List.append_nil, unknownAmong]
  by_cases hknown : b.tag ∈ known
  · simp [hknown]
  · simp only [hknown, if_false, List.filter_cons, List.filter_nil, not_false_iff, decide_true,
      if_true, List.map_cons, List.map_nil]
    rfl

/-- The warnings about the other things that can be wrong with a block. -/
theorem not_isUnknown_warnings (known : List Text) (before : Attributes) (b : Block) :
    (b.warnings known before).filter (!·.isUnknown) =
      if before.contains b.tag then [.tagOverwritten b.tag b.loc] else [] := by
  rw [Block.warnings]
  by_cases hknown : b.tag ∈ known <;> by_cases htwice : before.contains b.tag = true <;>
    simp [hknown, htwice, Warning.isUnknown]

theorem isUnknown_runWarnings (known : List Text) (run : List Block) :
    (runWarnings known run).filter Warning.isUnknown = unknownAmong known run := by
  suffices h : ∀ before, (runWarningsFrom known before run).filter Warning.isUnknown =
      unknownAmong known run from h .empty
  induction run with
  | nil => exact fun _ => rfl
  | cons b run ih =>
    intro before
    rw [runWarningsFrom, List.filter_append, isUnknown_warnings, ih, ← unknownAmong_append]
    rfl

theorem not_isUnknown_runWarnings (known known' : List Text) (run : List Block) :
    (runWarnings known' run).filter (!·.isUnknown) =
      (runWarnings known run).filter (!·.isUnknown) := by
  suffices h : ∀ before, (runWarningsFrom known' before run).filter (!·.isUnknown) =
      (runWarningsFrom known before run).filter (!·.isUnknown) from h .empty
  induction run with
  | nil => exact fun _ => rfl
  | cons b run ih =>
    intro before
    rw [runWarningsFrom, runWarningsFrom, List.filter_append, List.filter_append, ih,
      not_isUnknown_warnings, not_isUnknown_warnings]

/-- With a larger vocabulary there are fewer warnings. -/
theorem runWarnings_sublist (h : known ⊆ known') (run : List Block) :
    (runWarnings known' run).Sublist (runWarnings known run) := by
  suffices hfrom : ∀ before,
      (runWarningsFrom known' before run).Sublist (runWarningsFrom known before run) from
    hfrom .empty
  induction run with
  | nil => exact fun _ => .refl _
  | cons b run ih =>
    intro before
    refine List.Sublist.append (List.Sublist.append ?_ (.refl _)) (ih _)
    by_cases hknown : b.tag ∈ known
    · rw [if_pos hknown, if_pos (h hknown)]
    · rw [if_neg hknown]
      split
      · exact List.nil_sublist _
      · exact .refl _

theorem isUnknown_disagreements (command : Text) (loc : Location) (above own : Attributes) :
    (above.disagreements command loc own).filter Warning.isUnknown = [] := by
  rw [List.filter_eq_nil_iff]
  intro w hw
  obtain ⟨e, -, he⟩ := List.mem_filterMap.1 hw
  obtain ⟨value, -, rfl⟩ := Option.map_eq_some_iff.1 he
  exact Bool.false_ne_true

/-! ## Two vocabularies -/

namespace Catalogue

/-- The catalogue with another vocabulary. -/
def withKnown (c : Catalogue) (known : List Text) : Catalogue := { c with knownTags := known }

/-- The catalogue without vocabulary and warnings. -/
def bare (c : Catalogue) : Catalogue := { c with knownTags := [], warnings := [] }

/-- A declaration depends on neither. -/
theorem declare_bare (c : Catalogue) (name : Text) (d : Declaration) :
    c.bare.declare name d = (c.declare name d).map bare := by
  rw [declare, declare, show c.bare.sections = c.sections from rfl]
  cases c.sections.find? name with
  | none => rfl
  | some o =>
    obtain ⟨_, _, _ | earlier, _, _⟩ := o
    · rfl
    · rfl

theorem bare_reserve (c : Catalogue) (name : Text) :
    (c.reserve name).bare = c.bare.reserve name := by
  rw [reserve, reserve, show c.bare.sections = c.sections from rfl]
  split <;> rfl

theorem knownTags_reserve (c : Catalogue) (name : Text) :
    (c.reserve name).knownTags = c.knownTags := by
  rw [reserve]
  split <;> rfl

end Catalogue

namespace Progress

/-- Two progresses that differ in their vocabularies and in warnings about unknown tags only. -/
structure SameButVocabulary (known known' : List Text) (p p' : Progress) : Prop where
  current_eq : p'.current = p.current
  bare_eq : p'.catalogue.bare = p.catalogue.bare
  knownTags_eq : p.catalogue.knownTags = known ∧ p'.catalogue.knownTags = known'
  others_eq : p'.catalogue.warnings.filter (!·.isUnknown) =
    p.catalogue.warnings.filter (!·.isUnknown)
  sublist : known ⊆ known' → p'.catalogue.warnings.Sublist p.catalogue.warnings

theorem SameButVocabulary.warn {p p' : Progress} (h : p.SameButVocabulary known known' p')
    {ws ws' : List Warning} (hothers : ws'.filter (!·.isUnknown) = ws.filter (!·.isUnknown))
    (hsublist : known ⊆ known' → ws'.Sublist ws) :
    (p.warn ws).SameButVocabulary known known' (p'.warn ws') where
  current_eq := h.current_eq
  bare_eq := h.bare_eq
  knownTags_eq := h.knownTags_eq
  others_eq := by
    have hsame := congrArg₂ (· ++ ·) h.others_eq hothers
    simp only [← List.filter_append] at hsame
    exact hsame
  sublist hknown := (h.sublist hknown).append (hsublist hknown)

theorem SameButVocabulary.reserve {c c' : Catalogue}
    (h : SameButVocabulary known known' ⟨c, none⟩ ⟨c', none⟩) (name : Text) :
    SameButVocabulary known known' ⟨c.reserve name, none⟩ ⟨c'.reserve name, none⟩ := by
  have hbare := congrArg (·.reserve name) h.bare_eq
  simp only [← Catalogue.bare_reserve] at hbare
  refine ⟨rfl, hbare, ?_, ?_, ?_⟩
  · rw [Catalogue.knownTags_reserve, Catalogue.knownTags_reserve]
    exact h.knownTags_eq
  · rw [(c.reserve_frame name).2, (c'.reserve_frame name).2]
    exact h.others_eq
  · rw [(c.reserve_frame name).2, (c'.reserve_frame name).2]
    exact h.sublist

end Progress

/-- **A reader sees the vocabulary in warnings about unknown tags only.** -/
theorem steady_sameButVocabulary (known known' : List Text) :
    Steady (Progress.SameButVocabulary known known') where
  current_eq h := h.current_eq
  declaration?_eq h name := congrArg (·.declaration? name) h.bare_eq
  symbol_loc_eq h command := by
    have hsymbols := congrArg Catalogue.symbols h.bare_eq
    exact congrArg (fun symbols => (symbols.find? command).map Symbol.loc) hsymbols
  warn h ws := h.warn rfl fun _ => .refl ws
  run h run := by
    refine h.warn (not_isUnknown_runWarnings ..) fun hknown => ?_
    rw [h.knownTags_eq.1, h.knownTags_eq.2]
    exact runWarnings_sublist hknown run
  declare {p p' name d c c'} h hc hc' := by
    have hsame := congrArg (·.declare name d) h.bare_eq
    simp only [Catalogue.declare_bare, hc, hc', Except.map, Except.ok.injEq] at hsame
    obtain ⟨-, htags, hwarnings⟩ := Catalogue.declare_frame hc
    obtain ⟨-, htags', hwarnings'⟩ := Catalogue.declare_frame hc'
    refine ⟨rfl, hsame, ?_, ?_, ?_⟩
    · rw [htags, htags']
      exact h.knownTags_eq
    · rw [hwarnings, hwarnings']
      exact h.others_eq
    · rw [hwarnings, hwarnings']
      exact h.sublist
  register {p p' owner l d own nomenclature} h _ _ _ := by
    have hregister := congrArg (fun c =>
      c.register ((Progress.mk c none).symbol owner d l own nomenclature)) h.bare_eq
    exact ⟨h.current_eq, hregister, h.knownTags_eq, h.others_eq, h.sublist⟩
  finish h := ⟨rfl, h.bare_eq, h.knownTags_eq, h.others_eq, h.sublist⟩

/-! ## Blocks that are taken as attributes -/

namespace Catalogue

variable {c c' c'' : Catalogue} {blocks later : List Block}

/-- Of the warnings that `c'` has more than `c`, those about unknown tags are about the given
blocks. -/
structure WarnsOf (c : Catalogue) (blocks : List Block) (c' : Catalogue) : Prop where
  knownTags_eq : c'.knownTags = c.knownTags
  unknown_eq : c'.warnings.filter Warning.isUnknown =
    c.warnings.filter Warning.isUnknown ++ unknownAmong c.knownTags blocks

theorem WarnsOf.refl (c : Catalogue) : c.WarnsOf [] c := ⟨rfl, (List.append_nil _).symm⟩

theorem WarnsOf.append (h : c.WarnsOf blocks c') (h' : c'.WarnsOf later c'') :
    c.WarnsOf (blocks ++ later) c'' where
  knownTags_eq := h'.knownTags_eq.trans h.knownTags_eq
  unknown_eq := by
    rw [h'.unknown_eq, h.unknown_eq, h.knownTags_eq, unknownAmong_append, List.append_assoc]

theorem WarnsOf.of_warnings_eq (h : c.WarnsOf blocks c') (htags : c''.knownTags = c'.knownTags)
    (hwarnings : c''.warnings = c'.warnings) : c.WarnsOf blocks c'' :=
  ⟨htags.trans h.knownTags_eq, by rw [hwarnings, h.unknown_eq]⟩

theorem warnsOf_runWarnings (c : Catalogue) (run : List Block) :
    c.WarnsOf run (c.warn (runWarnings c.knownTags run)) := by
  refine ⟨rfl, ?_⟩
  rw [warn, List.filter_append, isUnknown_runWarnings]

/-- Other warnings do not matter. -/
theorem WarnsOf.warn (h : c.WarnsOf blocks c') {ws : List Warning}
    (hws : ws.filter Warning.isUnknown = []) : c.WarnsOf blocks (c'.warn ws) := by
  refine ⟨h.knownTags_eq, ?_⟩
  rw [Catalogue.warn, List.filter_append, hws, List.append_nil, h.unknown_eq]

theorem warnsOf_reserve (c : Catalogue) (name : Text) : c.WarnsOf [] (c.reserve name) :=
  (WarnsOf.refl c).of_warnings_eq (c.knownTags_reserve name) (c.reserve_frame name).2

end Catalogue

/-- A definition within a section takes its run, also if it is refused in the end. -/
theorem Progress.warnsOf_readDefinition {p : Progress} {owner : Text} (h : p.current = some owner)
    (d : Definition) (loc : Location) (run : List Block) :
    p.catalogue.WarnsOf run (p.readDefinition d loc run).2.catalogue := by
  have hrun := p.catalogue.warnsOf_runWarnings run
  simp only [readDefinition, h]
  split
  · exact hrun
  · exact hrun
  · exact (hrun.warn (isUnknown_disagreements ..)).of_warnings_eq rfl rfl

/-- So does a section tag that is well-formed. -/
theorem Progress.warnsOf_readSection {b : Block} {head : Text × Text}
    (h : sectionHead? b.content = some head) (p : Progress) (run : List Block) :
    p.catalogue.WarnsOf run (p.readSection b run).2.catalogue := by
  have hrun := p.catalogue.warnsOf_runWarnings run
  simp only [readSection, h]
  split
  · exact hrun
  · rename_i c hc
    obtain ⟨-, htags, hwarnings⟩ := Catalogue.declare_frame hc
    exact hrun.of_warnings_eq htags hwarnings

/-- **The blocks that are taken as attributes are those that are warned of.** -/
theorem ItemGroup.warnsOf_read (p : Progress) (g : ItemGroup) :
    p.catalogue.WarnsOf (g.attributeBlocks p) (g.read p).2.catalogue := by
  obtain ⟨first, run⟩ := g
  rcases first with e | ⟨d, loc⟩ | b | ⟨line, loc⟩
  · exact .refl _
  · cases hcurrent : p.current with
    | none =>
      simp only [attributeBlocks, read, Progress.readDefinition, hcurrent]
      exact .refl _
    | some owner =>
      simp only [attributeBlocks, read, hcurrent]
      exact Progress.warnsOf_readDefinition hcurrent d loc run
  · simp only [attributeBlocks, read]
    by_cases hdeclares : b.tag = Tag.declares
    · cases hhead : sectionHead? b.content with
      | none =>
        simp only [hdeclares, Progress.readSection, hhead]
        exact .refl _
      | some head =>
        rw [if_pos ⟨hdeclares, rfl⟩, if_pos hdeclares]
        exact Progress.warnsOf_readSection hhead p run
    · rw [if_neg hdeclares, if_neg fun h => hdeclares h.1]
      exact (Catalogue.WarnsOf.refl _).warn rfl
  · exact .refl _

/-- So are those of any number of pulls. -/
theorem Progress.warnsOf_take (groups : List ItemGroup) (n : Nat) (p : Progress) :
    p.catalogue.WarnsOf (take groups n p).attributeBlocks (take groups n p).progress.catalogue := by
  induction groups generalizing n p with
  | nil => exact .refl _
  | cons g groups ih =>
    cases n with
    | zero => exact .refl _
    | succ n =>
      have hgroup := g.warnsOf_read p
      rcases hread : g.read p with ⟨_ | e, p'⟩ <;> rw [hread] at hgroup
      · rw [take_cons_of_ok hread]
        exact hgroup.append (ih _ p')
      · rw [take_cons_of_error hread]
        exact hgroup

theorem ItemGroup.mem_run_of_mem_attributeBlocks {p : Progress} {g : ItemGroup} {b : Block}
    (h : b ∈ g.attributeBlocks p) : b ∈ g.run := by
  unfold attributeBlocks at h
  split at h
  · split at h
    · exact h
    · cases h
  · split at h
    · exact h
    · cases h
  · cases h

theorem Progress.exists_group_of_mem_attributeBlocks {groups : List ItemGroup} {n : Nat}
    {p : Progress} {b : Block} (h : b ∈ (take groups n p).attributeBlocks) :
    ∃ g ∈ groups, b ∈ g.run := by
  induction groups generalizing n p with
  | nil => cases h
  | cons g groups ih =>
    cases n with
    | zero => cases h
    | succ n =>
      rcases hread : g.read p with ⟨_ | e, p'⟩
      · rw [take_cons_of_ok hread] at h
        rcases List.mem_append.1 h with h | h
        · exact ⟨g, List.mem_cons_self, mem_run_of_mem_attributeBlocks h⟩
        · obtain ⟨g', hg', hb⟩ := ih h
          exact ⟨g', List.mem_cons_of_mem g hg', hb⟩
      · rw [take_cons_of_error hread] at h
        exact ⟨g, List.mem_cons_self, mem_run_of_mem_attributeBlocks h⟩

/-! ## Runs -/

namespace Catalogue

variable {c c' : Catalogue}

theorem warnsOf_run (c : Catalogue) (operations : List Operation) :
    c.WarnsOf (c.attributeBlocks operations) (c.run operations) := by
  induction operations generalizing c with
  | nil => exact .refl c
  | cons op operations ih =>
    cases op with
    | read file text pulls =>
      have hread := Progress.warnsOf_take (ofItems (Token.stream file text))
        (pulls.getD ((Token.stream file text).length + 1)) ⟨c, none⟩
      rw [show Progress.take _ _ _ = c.transcript file text pulls from rfl,
        ← (c.matches_transcript file text pulls).progress_eq] at hread
      exact hread.append (ih _)
    | reserve name => exact (c.warnsOf_reserve name).append (ih _)
    | link =>
      have hlink : c.WarnsOf [] c.link := (WarnsOf.refl c).of_warnings_eq rfl rfl
      exact hlink.append (ih c.link)

/-- No section tag is taken as an attribute. -/
theorem tag_ne_of_mem_attributeBlocks {operations : List Operation} {b : Block}
    (h : b ∈ c.attributeBlocks operations) : b.tag ≠ Tag.declares := by
  induction operations generalizing c with
  | nil => cases h
  | cons op operations ih =>
    cases op with
    | read file text pulls =>
      rcases List.mem_append.1 h with h | h
      · obtain ⟨g, hg, hb⟩ := Progress.exists_group_of_mem_attributeBlocks h
        exact (run_of_mem_ofItems hg hb).2
      · exact ih h
    | reserve name => exact ih h
    | link => exact ih h

/-- What a run has to say, with two vocabularies for the same catalogue. -/
structure VocabularyOnly (c : Catalogue) (operations : List Operation)
    (known known' : List Text) : Prop where
  answers_eq : (c.withKnown known').answers operations = (c.withKnown known).answers operations
  sections_eq : ((c.withKnown known').run operations).sections =
    ((c.withKnown known).run operations).sections
  symbols_eq : ((c.withKnown known').run operations).symbols =
    ((c.withKnown known).run operations).symbols
  nextOrder_eq : ((c.withKnown known').run operations).nextOrder =
    ((c.withKnown known).run operations).nextOrder
  others_eq : ((c.withKnown known').run operations).warnings.filter (!·.isUnknown) =
    ((c.withKnown known).run operations).warnings.filter (!·.isUnknown)
  /-- The same blocks are taken as attributes. -/
  attributeBlocks_eq : (c.withKnown known').attributeBlocks operations =
    (c.withKnown known).attributeBlocks operations
  tag_ne : ∀ b ∈ (c.withKnown known).attributeBlocks operations, b.tag ≠ Tag.declares
  /-- Exactly those of them are warned of whose tags are not in the vocabulary. -/
  unknown_eq : ((c.withKnown known).run operations).warnings.filter Warning.isUnknown =
    c.warnings.filter Warning.isUnknown ++
      (((c.withKnown known).attributeBlocks operations).filter (·.tag ∉ known)).map
        fun b => .unknownTag b.tag b.loc
  /-- A larger vocabulary only leaves out warnings. -/
  sublist : known ⊆ known' → ((c.withKnown known').run operations).warnings.Sublist
    ((c.withKnown known).run operations).warnings

theorem runsAlike_sameButVocabulary {known known' : List Text}
    (h : Progress.SameButVocabulary known known' ⟨c, none⟩ ⟨c', none⟩)
    (operations : List Operation) :
    RunsAlike (Progress.SameButVocabulary known known') c c' operations operations := by
  have hruns : RunsAlike (Progress.SameButVocabulary known known') c c'
      (operations.filter fun _ => true) operations := by
    refine (steady_sameButVocabulary known known').runsAlike (fun _ _ _ => rfl)
      (fun {c c' name} _ hc => ?_) (fun {c c'} _ hc => ?_) h
    · exact hc.reserve name
    · exact ⟨rfl, congrArg link hc.bare_eq, hc.knownTags_eq, hc.others_eq, hc.sublist⟩
  rwa [List.filter_true] at hruns

/-- **The vocabulary only decides about warnings of unknown tags.** -/
theorem vocabularyOnly (c : Catalogue) (operations : List Operation) (known known' : List Text) :
    c.VocabularyOnly operations known known' := by
  have hstart : Progress.SameButVocabulary known known' ⟨c.withKnown known, none⟩
      ⟨c.withKnown known', none⟩ := ⟨rfl, rfl, ⟨rfl, rfl⟩, rfl, fun _ => .refl _⟩
  obtain ⟨hanswers, hblocks, hend⟩ := runsAlike_sameButVocabulary hstart operations
  have hsections := congrArg sections hend.bare_eq
  have hsymbols := congrArg symbols hend.bare_eq
  have hnext := congrArg nextOrder hend.bare_eq
  exact {
    answers_eq := hanswers
    sections_eq := hsections
    symbols_eq := hsymbols
    nextOrder_eq := hnext
    others_eq := hend.others_eq
    attributeBlocks_eq := hblocks
    tag_ne := fun _ => tag_ne_of_mem_attributeBlocks
    unknown_eq := (warnsOf_run (c.withKnown known) operations).unknown_eq
    sublist := hend.sublist }

end Catalogue

end TexSymbols

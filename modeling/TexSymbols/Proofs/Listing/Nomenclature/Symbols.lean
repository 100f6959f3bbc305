import TexSymbols.Listing.Nomenclature
import TexSymbols.Proofs.Catalogue.Runs
import TexSymbols.Proofs.Results

/-!
# Symbols in a nomenclature

* `Symbol.RefersUnprefixed` — a cross-reference that is refused; `Symbol.refusal?` — the error;
  `Symbol.reference_eq` — a symbol without it has its cross-reference.
* `Symbol.labelAndText?_eq` — which symbols have a label and an explanation.
* `Catalogue.WellFormed.perm_symbolsOf` — going through the sections, in any order, all symbols are
  met once.
* `Nomenclature.IsUsed`, `Nomenclature.Eligible` — which commands count as used, and which symbols
  may stand in the table.
* `findSome?_refusal?_eq_some_iff` — which of several symbols is refused.
-/

namespace TexSymbols

namespace Symbol

variable {s : Symbol}

/-! ## The cross-reference -/

/-- What the symbol refers to; empty if there is none. -/
def target (s : Symbol) : Text := (s.attributes.find? "def").getD []

/-- The symbol refers to `target`, which lacks a prefix. -/
def RefersUnprefixed (s : Symbol) (target : Text) : Prop :=
  s.attributes.find? "def" = some target ∧ target ≠ [] ∧ ':' ∉ target

/-- Why the symbol cannot be written. -/
def refusal? (s : Symbol) : Option ListingError :=
  if s.target = [] ∨ ':' ∈ s.target then none
  else some (.unprefixedReference s.command s.target)

theorem reference_eq (s : Symbol) : s.reference = failsOr s.refusal? s.target := by
  show (if s.target = [] ∨ ':' ∈ s.target then Except.ok s.target else .error _) = _
  rw [refusal?]
  split <;> rfl

theorem refersUnprefixed_iff {t : Text} :
    s.RefersUnprefixed t ↔ s.target = t ∧ t ≠ [] ∧ ':' ∉ t := by
  unfold RefersUnprefixed target
  rw [and_congr_left_iff]
  rintro ⟨hne, -⟩
  cases hfind : s.attributes.find? "def" with
  | none => simpa using Ne.symm hne
  | some value => rw [Option.some.injEq, Option.getD_some]

theorem refusal?_eq_some_iff {e : ListingError} :
    s.refusal? = some e ↔ ∃ t, s.RefersUnprefixed t ∧ e = .unprefixedReference s.command t := by
  simp only [refersUnprefixed_iff, refusal?]
  split <;> rename_i h
  · simp only [reduceCtorEq, false_iff]
    rintro ⟨t, ⟨rfl, hne, hcolon⟩, -⟩
    exact h.elim hne hcolon
  · rw [not_or] at h
    constructor
    · rintro heq
      exact ⟨_, ⟨rfl, h⟩, (Option.some.inj heq).symm⟩
    · rintro ⟨t, ⟨rfl, -⟩, rfl⟩
      rfl

theorem refusal?_eq_none_iff : s.refusal? = none ↔ ∀ t, ¬ s.RefersUnprefixed t := by
  rw [Option.eq_none_iff_forall_ne_some]
  constructor
  · exact fun h t ht => h _ (refusal?_eq_some_iff.2 ⟨t, ht, rfl⟩)
  · intro h e he
    obtain ⟨t, ht, -⟩ := refusal?_eq_some_iff.1 he
    exact h t ht

/-! ## Label and explanation -/

/-- How the symbol is shown: the label of its entry, or its command. -/
def label (s : Symbol) : Text :=
  "$" ++ (s.nomenclature.map NomenclatureEntry.label).getD s.command ++ "$"

/-- How it is explained: the text of its entry, or its description. -/
def explanation (s : Symbol) : Text :=
  (s.nomenclature.map NomenclatureEntry.text).getD s.comment

/-- Whether there is an entry, or no argument. -/
def isShown (s : Symbol) : Bool := s.nomenclature.isSome || s.nargs == 0

theorem isShown_eq_false_iff : s.isShown = false ↔ s.nomenclature = none ∧ s.nargs ≠ 0 := by
  simp [isShown]

theorem labelAndText?_eq (s : Symbol) :
    s.labelAndText? = if s.isShown then some (s.label, s.explanation) else none := by
  unfold labelAndText? isShown label explanation
  cases s.nomenclature with
  | some e => rfl
  | none =>
    by_cases h : s.nargs = 0
    · simp only [h, if_true]
      rfl
    · simp [h]

end Symbol

/-! ## Use and refusal -/

namespace Nomenclature

/-- There is no usage map, or it knows the command. -/
def IsUsed (usages : Option UsageMap) (command : Text) : Prop := ∀ m ∈ usages, command ∈ m.keys

instance (usages : Option UsageMap) (command : Text) : Decidable (IsUsed usages command) :=
  inferInstanceAs (Decidable (∀ m ∈ usages, command ∈ m.keys))

theorem isUsed_eq (usages : Option UsageMap) (command : Text) :
    isUsed usages command = decide (IsUsed usages command) := by
  cases usages with
  | none => simp [isUsed, IsUsed]
  | some m => simp [isUsed, IsUsed, OrderedMap.contains]

/-- The symbol may stand in the table: it is not excluded, and it has an entry or no arguments. -/
def Eligible (s : Symbol) : Prop :=
  ("nomenc-exclude" : Text) ∉ s.attributes.keys ∧ (s.nomenclature ≠ none ∨ s.nargs = 0)

instance (s : Symbol) : Decidable (Eligible s) :=
  inferInstanceAs (Decidable (_ ∧ (s.nomenclature ≠ none ∨ s.nargs = 0)))

theorem isListed_eq (s : Symbol) : isListed s = (!s.hasAttribute Tag.excluded && s.isShown) := rfl

theorem isListed_eq_decide (s : Symbol) : isListed s = decide (Eligible s) := by
  rw [Bool.eq_iff_iff, decide_eq_true_iff, Eligible, isListed, Bool.and_eq_true, Bool.or_eq_true,
    Bool.not_eq_true', Option.isSome_iff_ne_none, beq_iff_eq, ← Bool.not_eq_true]
  exact and_congr_left' (not_congr OrderedMap.contains_iff)

theorem isListed_iff {s : Symbol} : isListed s = true ↔
    s.hasAttribute Tag.excluded = false ∧ ¬(s.nomenclature = none ∧ s.nargs ≠ 0) := by
  rw [isListed_eq, Bool.and_eq_true, Bool.not_eq_true', ← Symbol.isShown_eq_false_iff,
    Bool.not_eq_false]

end Nomenclature

/-- **The first of several symbols whose cross-reference lacks a prefix is refused.** -/
theorem findSome?_refusal?_eq_some_iff {symbols : List Symbol} {e : ListingError} :
    symbols.findSome? Symbol.refusal? = some e ↔
      ∃ before s after t, symbols = before ++ s :: after ∧
        (∀ r ∈ before, ∀ t, ¬ r.RefersUnprefixed t) ∧ s.RefersUnprefixed t ∧
          e = .unprefixedReference s.command t := by
  simp only [List.findSome?_eq_some_iff, Symbol.refusal?_eq_some_iff, Symbol.refusal?_eq_none_iff]
  constructor
  · rintro ⟨before, s, after, hsplit, ⟨t, ht, he⟩, hbefore⟩
    exact ⟨before, s, after, t, hsplit, hbefore, ht, he⟩
  · rintro ⟨before, s, after, t, hsplit, hbefore, ht, he⟩
    exact ⟨before, s, after, hsplit, ⟨t, ht, he⟩, hbefore⟩

theorem findSome?_refusal?_eq_none_iff {symbols : List Symbol} :
    symbols.findSome? Symbol.refusal? = none ↔ ∀ s ∈ symbols, ∀ t, ¬ s.RefersUnprefixed t := by
  simp only [List.findSome?_eq_none_iff, Symbol.refusal?_eq_none_iff]

theorem exists_findSome?_refusal? {symbols : List Symbol} :
    (∃ e, symbols.findSome? Symbol.refusal? = some e) ↔
      ∃ s ∈ symbols, ∃ t, s.RefersUnprefixed t := by
  rw [← Option.isSome_iff_exists, Option.isSome_iff_ne_none, ne_eq, findSome?_refusal?_eq_none_iff]
  push Not
  rfl

/-! ## Section by section -/

/-- Elements taken key by key are all there, if each has one of the keys and no key stands twice. -/
theorem perm_flatMap_filter {α κ : Type} [DecidableEq κ] {key : α → κ} {keys : List κ}
    {xs : List α} (hkeys : keys.Nodup) (hmem : ∀ x ∈ xs, key x ∈ keys) :
    (keys.flatMap fun k => xs.filter (key · = k)).Perm xs := by
  induction keys generalizing xs with
  | nil =>
    rw [List.eq_nil_iff_forall_not_mem.2 fun x hx => List.not_mem_nil (hmem x hx)]
    rfl
  | cons k keys ih =>
    obtain ⟨hnew, hkeys⟩ := List.nodup_cons.1 hkeys
    -- the elements of the other keys are among those that do not have the first one
    have hothers : (keys.flatMap fun j => xs.filter (key · = j)) =
        keys.flatMap fun j => (xs.filter (¬ key · = k)).filter (key · = j) := by
      refine List.flatMap_congr fun j hj => ?_
      have hne : j ≠ k := fun heq => hnew (heq ▸ hj)
      rw [List.filter_filter]
      refine List.filter_congr fun x _ => ?_
      by_cases hx : key x = j <;> simp [hx, hne]
    have hrest : ∀ x ∈ xs.filter (¬ key · = k), key x ∈ keys := by
      intro x hx
      rw [List.mem_filter, decide_eq_true_iff] at hx
      exact (List.mem_cons.1 (hmem x hx.1)).resolve_left hx.2
    rw [List.flatMap_cons, hothers]
    refine ((ih hkeys hrest).append_left _).trans ?_
    simpa using List.filter_append_perm (fun x => decide (key x = k)) xs

namespace Catalogue

variable {c : Catalogue} {o : Section} {sections : List Section}

theorem WellFormed.owner_of_mem_symbolsOf (h : c.WellFormed) (ho : o ∈ c.sections.values)
    {s : Symbol} (hs : s ∈ c.symbolsOf o) : s.owner = o.name := by
  rw [h.symbolsOf_eq ho] at hs
  exact of_decide_eq_true (List.mem_filter.1 hs).2

/-- **Going through the sections in any order, all symbols are met once.** -/
theorem WellFormed.perm_symbolsOf (h : c.WellFormed) (hsections : sections.Perm c.sections.values) :
    (sections.flatMap c.symbolsOf).Perm c.symbols.values := by
  have hnames : (sections.map Section.name).Nodup :=
    (hsections.map Section.name).nodup_iff.2 h.names_nodup
  have howner : ∀ s ∈ c.symbols.values, s.owner ∈ sections.map Section.name := by
    intro s hs
    have hdeclared := mem_keys_of_declares (h.owner_declared s hs)
    rw [← h.names_eq_keys] at hdeclared
    exact (hsections.map Section.name).mem_iff.2 hdeclared
  have hsymbols : sections.flatMap c.symbolsOf =
      (sections.map Section.name).flatMap c.ownedBy := by
    rw [List.flatMap_map]
    exact List.flatMap_congr fun o ho => h.symbolsOf_eq (hsections.mem_iff.1 ho)
  rw [hsymbols]
  exact perm_flatMap_filter hnames howner

end Catalogue

end TexSymbols

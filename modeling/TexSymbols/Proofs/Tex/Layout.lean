import TexSymbols.Proofs.Tex.Opening

/-!
# The layout of a definition line

* `Definition.Layout` — all the parts of a definition line, `Layout.definition` — what they define.
* `read_eq_definition_iff` — a definition is read exactly from a line with a layout, and is the one
  that the layout gives; `read_eq_oversizedArity_iff` — lines with too large a number of arguments.
* `Layout.unique` — a line has one layout at most.
-/

namespace TexSymbols.Definition

variable {line : Text}

/-- The parts of a definition line. -/
structure Layout extends Opening where
  body : Text
  rest : Text

namespace Layout

/-- The line that the parts make. -/
def text (l : Layout) : Text := l.toOpening.text ++ "\x7b" ++ l.body ++ "\x7d" ++ l.rest

/-- The number of arguments, zero if there is none. -/
def nargs (l : Layout) : Nat := (l.digits.map Decimal.value).getD 0

/-- What a line with these parts defines; the comment is the rest without its percent signs and
without blanks at the ends. -/
def definition (l : Layout) : Definition :=
  ⟨l.command, l.nargs, l.body, Text.trim (l.rest.filter (· ≠ '%'))⟩

/-- What the parts of a definition line may be. -/
structure Valid (l : Layout) : Prop extends l.toOpening.Valid where
  nargs_lt : l.nargs < Nat.pow 2 64
  body : Balanced l.body

/-- The body in its braces, and the rest. -/
def group (l : Layout) : Text := '{' :: (l.body ++ '}' :: l.rest)

theorem text_eq (l : Layout) : l.text = l.toOpening.text ++ l.group := by simp [text, group]

theorem ends_group (l : Layout) : l.toOpening.Ends l.group where
  endsRun := endsRun_cons.2 (by decide)
  noDigits _ := rfl

end Layout

/-- The number of arguments of a head, zero if there is none. -/
def Head.nargs (h : Head) : Nat := (h.digits.map Decimal.value).getD 0

/-- A line with a head is read as a definition unless its number of arguments is too large. -/
theorem read_of_head {h : Head} (hh : Head.read? line = some h) :
    read line = if h.nargs < arityBound then ofHead h h.nargs
      else .oversizedArity (h.digits.getD []) h.command := by
  unfold read Head.nargs
  rw [hh]
  cases hdigits : h.digits with
  | none => simp [hdigits, arityBound]
  | some digits => simp [hdigits]

theorem ofHead_eq_definition_iff {h : Head} {n : Nat} {d : Definition} :
    ofHead h n = .definition d ↔ ∃ body rest, braceGroup? h.rest = some (body, rest) ∧
      d = ⟨h.command, n, body, commentOf rest⟩ := by
  unfold ofHead
  cases braceGroup? h.rest with
  | none => simp
  | some p =>
    obtain ⟨body, rest⟩ := p
    constructor
    · intro h
      exact ⟨body, rest, rfl, (DefinitionReading.definition.inj h).symm⟩
    · rintro ⟨_, _, hgroup, rfl⟩
      cases hgroup
      rfl

/-- **A definition is read exactly from a line with a layout, and is the one that it gives.** -/
theorem read_eq_definition_iff {d : Definition} :
    read line = .definition d ↔ ∃ l : Layout, l.Valid ∧ l.text = line ∧ l.definition = d := by
  constructor
  · intro h
    cases hh : Head.read? line with
    | none => simp [read, hh] at h
    | some head =>
      rw [read_of_head hh] at h
      split at h
      · rename_i hnargs
        obtain ⟨body, rest, hgroup, rfl⟩ := ofHead_eq_definition_iff.1 h
        obtain ⟨o, ho, -, rfl, hcommand, hdigits⟩ := Head.read?_eq_some_iff.1 hh
        obtain ⟨hrest, hbody⟩ := braceGroup?_eq_some_iff.1 hgroup
        have hnargs_eq : Layout.nargs ⟨o, body, rest⟩ = head.nargs := by
          rw [Layout.nargs, Head.nargs, hdigits]
        refine ⟨⟨o, body, rest⟩, ⟨ho, hnargs_eq ▸ hnargs, hbody⟩, ?_, ?_⟩
        · rw [Layout.text_eq, hrest]
          rfl
        · rw [Layout.definition, hnargs_eq, hcommand, commentOf]
      · cases h
  · rintro ⟨l, hl, rfl, rfl⟩
    have hread : Head.read? l.text = some ⟨l.command, l.digits, l.group⟩ := by
      rw [l.text_eq, Head.read?_append hl.toValid l.ends_group]
    have hnargs : Head.nargs ⟨l.command, l.digits, l.group⟩ < arityBound := hl.nargs_lt
    rw [read_of_head hread, if_pos hnargs]
    exact ofHead_eq_definition_iff.2 ⟨_, _, braceGroup?_of_balanced hl.body l.rest, rfl⟩

/-- **A line is kept because of its number of arguments exactly if that is too large.** -/
theorem read_eq_oversizedArity_iff {digits command : Text} :
    read line = .oversizedArity digits command ↔ ∃ (o : Opening) (r : Text), o.Valid ∧
      o.Ends r ∧ line = o.text ++ r ∧ o.command = command ∧ o.digits = some digits ∧
      Nat.pow 2 64 ≤ Decimal.value digits := by
  constructor
  · intro h
    cases hh : Head.read? line with
    | none => simp [read, hh] at h
    | some head =>
      rw [read_of_head hh] at h
      split at h
      · unfold ofHead at h
        split at h <;> cases h
      · rename_i hnargs
        obtain ⟨o, ho, hends, hline, hcommand, hdigits⟩ := Head.read?_eq_some_iff.1 hh
        obtain ⟨rfl, rfl⟩ := DefinitionReading.oversizedArity.inj h
        rw [Head.nargs] at hnargs
        cases hsome : head.digits with
        | none => simp [hsome, arityBound] at hnargs
        | some digits =>
          refine ⟨o, head.rest, ho, hends, hline, hcommand.symm, hdigits.symm.trans hsome, ?_⟩
          simpa [hsome, arityBound] using hnargs
  · rintro ⟨o, r, ho, hends, rfl, rfl, hdigits, hvalue⟩
    have hnargs : ¬ Head.nargs ⟨o.command, o.digits, r⟩ < arityBound := by
      simpa [Head.nargs, hdigits, arityBound] using hvalue
    rw [read_of_head (Head.read?_append ho hends), if_neg hnargs, hdigits]
    rfl

/-- **A line has one layout at most.** -/
theorem Layout.unique {l l' : Layout} (hl : l.Valid) (hl' : l'.Valid) (h : l.text = l'.text) :
    l = l' := by
  rw [l.text_eq, l'.text_eq] at h
  obtain ⟨hopening, hgroup⟩ := Opening.unique hl.toValid hl'.toValid l.ends_group l'.ends_group h
  have hparts := braceGroup?_of_balanced hl.body l.rest
  have hparts' := braceGroup?_of_balanced hl'.body l'.rest
  rw [Layout.group, Layout.group] at hgroup
  rw [hgroup, hparts'] at hparts
  obtain ⟨hbody, hrest⟩ := Prod.mk.inj (Option.some.inj hparts)
  calc l = ⟨l.toOpening, l.body, l.rest⟩ := rfl
    _ = ⟨l'.toOpening, l'.body, l'.rest⟩ := by rw [hopening, hbody, hrest]
    _ = l' := rfl

end TexSymbols.Definition

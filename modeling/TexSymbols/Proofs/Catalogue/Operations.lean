import TexSymbols.Catalogue.Hierarchy
import TexSymbols.Proofs.OrderedMap

/-!
# What the operations of a catalogue do

* `Catalogue.Declares` — a section of that name is declared, not only reserved.
* `declare_eq_ok` — a section is declared in one of two ways: as a new one, or by completing a
  reservation.
* `declare_eq_error` — the only obstacle is an earlier declaration.
* `declaration?_declare`, `declaration?_register` — what is declared afterwards.
-/

namespace TexSymbols.Catalogue

variable {c c' : Catalogue} {name other : Text} {d : Declaration}

/-- The declaration of a section of that name, if there is one. -/
def declaration? (c : Catalogue) (name : Text) : Option Declaration :=
  (c.sections.find? name).bind Section.declaration

/-- A section of that name is declared. -/
def Declares (c : Catalogue) (name : Text) : Prop := (c.declaration? name).isSome

/-- The catalogue in which the reserved section of that name is completed. -/
def complete (c : Catalogue) (name : Text) (d : Declaration) : Catalogue :=
  { c with sections := c.sections.modify name fun s => { s with declaration := some d } }

theorem declares_iff :
    c.Declares name ↔ ∃ o, c.sections.find? name = some o ∧ o.isReserved = false := by
  unfold Declares declaration? Section.isReserved
  cases h : c.sections.find? name with
  | none => simp
  | some o => simp [Option.isSome_iff_ne_none]

theorem declare_of_notMem (h : name ∉ c.sections.keys) (d : Declaration) :
    c.declare name d = .ok (c.addSection name (some d)) := by
  rw [declare, OrderedMap.find?_eq_none.2 h]

theorem declare_of_reserved {o : Section} (h : c.sections.find? name = some o)
    (ho : o.declaration = none)
    (d : Declaration) : c.declare name d = .ok (c.complete name d) := by
  simp only [declare, h, ho]
  rfl

theorem declare_of_declared {earlier : Declaration} (h : c.declaration? name = some earlier)
    (d : Declaration) :
    c.declare name d = .error (.duplicateSection name d.loc earlier.loc) := by
  obtain ⟨o, ho, he⟩ := Option.bind_eq_some_iff.1 h
  simp only [declare, ho, he]

/-- A section is declared as a new one or by completing a reservation. -/
theorem declare_eq_ok (h : c.declare name d = .ok c') :
    c.declaration? name = none ∧
      (name ∉ c.sections.keys ∧ c' = c.addSection name (some d) ∨
        (∃ o, c.sections.find? name = some o ∧ o.declaration = none) ∧ c' = c.complete name d) := by
  cases hf : c.sections.find? name with
  | none =>
    have hn := OrderedMap.find?_eq_none.1 hf
    rw [declare_of_notMem hn] at h
    cases h
    exact ⟨by simp [declaration?, hf], .inl ⟨hn, rfl⟩⟩
  | some o =>
    cases ho : o.declaration with
    | none =>
      rw [declare_of_reserved hf ho] at h
      cases h
      exact ⟨by simp [declaration?, hf, ho], .inr ⟨⟨o, rfl, ho⟩, rfl⟩⟩
    | some earlier =>
      have hd : c.declaration? name = some earlier := by simp [declaration?, hf, ho]
      rw [declare_of_declared hd] at h
      cases h

theorem declare_eq_error {e : ReadError} (h : c.declare name d = .error e) :
    ∃ earlier, c.declaration? name = some earlier ∧
      e = .duplicateSection name d.loc earlier.loc := by
  cases hd : c.declaration? name with
  | some earlier =>
    rw [declare_of_declared hd] at h
    cases h
    exact ⟨earlier, rfl, rfl⟩
  | none =>
    cases hf : c.sections.find? name with
    | none =>
      rw [declare_of_notMem (OrderedMap.find?_eq_none.1 hf)] at h
      cases h
    | some o =>
      have ho : o.declaration = none := by simpa [declaration?, hf] using hd
      rw [declare_of_reserved hf ho] at h
      cases h

/-- A declaration succeeds unless the name is declared. -/
theorem exists_declare_eq_ok_iff : (∃ c', c.declare name d = .ok c') ↔ ¬ c.Declares name := by
  constructor
  · rintro ⟨c', h⟩
    simp [Declares, (declare_eq_ok h).1]
  · intro h
    cases hc : c.declare name d with
    | ok c' => exact ⟨c', rfl⟩
    | error e =>
      obtain ⟨earlier, he, -⟩ := declare_eq_error hc
      exact absurd (by simp [Declares, he]) h

/-! ## Reading after writing -/

theorem declaration?_addSection (decl : Option Declaration) :
    (c.addSection name decl).declaration? other =
      if other = name then decl else c.declaration? other := by
  unfold addSection declaration?
  rw [OrderedMap.find?_insert]
  split <;> rfl

theorem declaration?_complete (h : name ∈ c.sections.keys) :
    (c.complete name d).declaration? other =
      if other = name then some d else c.declaration? other := by
  unfold complete declaration?
  rw [OrderedMap.find?_modify]
  split
  · rename_i he
    subst he
    cases hf : c.sections.find? other with
    | none => exact absurd h (OrderedMap.find?_eq_none.1 hf)
    | some o => rfl
  · rfl

/-- After a declaration the name has it, and every other name what it had. -/
theorem declaration?_declare (h : c.declare name d = .ok c') :
    c'.declaration? other = if other = name then some d else c.declaration? other := by
  obtain ⟨-, ⟨-, rfl⟩ | ⟨⟨o, ho, -⟩, rfl⟩⟩ := declare_eq_ok h
  · exact declaration?_addSection _
  · exact declaration?_complete (OrderedMap.find?_isSome_iff.1 (by rw [ho]; rfl))

theorem declaration?_register (s : Symbol) :
    (c.register s).declaration? name = c.declaration? name := by
  unfold register declaration?
  rw [OrderedMap.find?_modify]
  split
  · cases c.sections.find? name <;> rfl
  · rfl

theorem declaration?_reserve (c : Catalogue) (name other : Text) :
    (c.reserve name).declaration? other = c.declaration? other := by
  unfold reserve
  split
  · rfl
  · rename_i hname
    rw [declaration?_addSection]
    split
    · rename_i heq
      have hnone : c.sections.find? name = none := OrderedMap.find?_eq_none.2 (by simpa using hname)
      rw [heq, declaration?, hnone, Option.bind_none]
    · rfl

theorem declaration?_link (c : Catalogue) (name : Text) :
    c.link.declaration? name = c.declaration? name := by
  unfold link declaration?
  rw [OrderedMap.find?_mapValues]
  cases c.sections.find? name <;> rfl

theorem find?_register (s : Symbol) : (c.register s).symbols.find? s.command = some s := by
  simp only [register, OrderedMap.find?_insert, if_true]

/-- A declaration leaves the symbols, the vocabulary and the warnings as they are. -/
theorem declare_frame (h : c.declare name d = .ok c') :
    c'.symbols = c.symbols ∧ c'.knownTags = c.knownTags ∧ c'.warnings = c.warnings := by
  obtain ⟨-, ⟨-, rfl⟩ | ⟨-, rfl⟩⟩ := declare_eq_ok h <;> exact ⟨rfl, rfl, rfl⟩

/-- So does a reservation. -/
theorem reserve_frame (c : Catalogue) (name : Text) :
    (c.reserve name).symbols = c.symbols ∧ (c.reserve name).warnings = c.warnings := by
  unfold reserve
  split <;> exact ⟨rfl, rfl⟩

/-- A new section goes to the end. -/
theorem keys_declare_of_notMem (h : c.declare name d = .ok c') (hn : name ∉ c.sections.keys) :
    c'.sections.keys = c.sections.keys ++ [name] := by
  obtain ⟨-, ⟨-, rfl⟩ | ⟨⟨o, ho, -⟩, -⟩⟩ := declare_eq_ok h
  · simp [addSection, OrderedMap.keys_insert, hn]
  · exact absurd (OrderedMap.find?_isSome_iff.1 (by rw [ho]; rfl)) hn

/-- A completed section keeps its place. -/
theorem keys_declare_of_mem (h : c.declare name d = .ok c') (hn : name ∈ c.sections.keys) :
    c'.sections.keys = c.sections.keys := by
  obtain ⟨-, ⟨hn', -⟩ | ⟨-, rfl⟩⟩ := declare_eq_ok h
  · exact absurd hn hn'
  · simp [complete]

end TexSymbols.Catalogue

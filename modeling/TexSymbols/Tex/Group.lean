import TexSymbols.Text

/-!
# Brace groups

* `Balanced` — the texts that may stand between a pair of braces: braces come in nested pairs, and a backslash
  takes the next character with it, whatever that is.
* `braceGroup?` — splits a leading group off a text.
* `Balanced.append`, `groupRest?_append` — a balanced text is read through.
-/

namespace TexSymbols

/-- Texts whose braces are balanced.  A character after a backslash does not count as a brace. -/
inductive Balanced : Text → Prop
  | nil : Balanced []
  | plain {c r} : c ≠ '\\' → c ≠ '{' → c ≠ '}' → Balanced r → Balanced (c :: r)
  | escaped (c) {r} : Balanced r → Balanced ('\\' :: c :: r)
  | group {a r} : Balanced a → Balanced r → Balanced ('{' :: (a ++ '}' :: r))

/-- Content and remainder of a group whose opening brace has been read, as have `depth` further opening braces
that are still open.  `none` if the group never closes. -/
def groupRest? : Nat → Text → Option (Text × Text)
  | depth, '\\' :: c :: r => (groupRest? depth r).map fun p => ('\\' :: c :: p.1, p.2)
  | depth, '{' :: r => (groupRest? (depth + 1) r).map fun p => ('{' :: p.1, p.2)
  | 0, '}' :: r => some ([], r)
  | depth + 1, '}' :: r => (groupRest? depth r).map fun p => ('}' :: p.1, p.2)
  | depth, c :: r => (groupRest? depth r).map fun p => (c :: p.1, p.2)
  | _, [] => none

/-- The content of a leading group and what follows it.  `none` if the text does not start with an opening brace
or the group never closes. -/
def braceGroup? : Text → Option (Text × Text)
  | '{' :: r => groupRest? 0 r
  | _ => none

theorem Balanced.append {a b : Text} (ha : Balanced a) (hb : Balanced b) : Balanced (a ++ b) := by
  induction ha with
  | nil => exact hb
  | plain h₁ h₂ h₃ _ ih => exact .plain h₁ h₂ h₃ ih
  | escaped c _ ih => exact .escaped c ih
  | group hi _ _ ih =>
    rw [List.cons_append, List.append_assoc, List.cons_append]
    exact .group hi ih

/-- A balanced text is read through at every depth. -/
theorem groupRest?_append {a : Text} (ha : Balanced a) (depth : Nat) (t : Text) :
    groupRest? depth (a ++ t) = (groupRest? depth t).map fun p => (a ++ p.1, p.2) := by
  induction ha generalizing depth t with
  | nil => cases h : groupRest? depth t <;> simp [h]
  | @plain c r h₁ h₂ h₃ _ ih =>
    have hstep : groupRest? depth (c :: (r ++ t)) = (groupRest? depth (r ++ t)).map fun p => (c :: p.1, p.2) := by
      rw [groupRest?.eq_def]
      split <;> simp_all
    rw [List.cons_append, hstep, ih, Option.map_map]
    rfl
  | escaped c _ ih => simp [groupRest?, ih, Function.comp_def]
  | group _ _ iha ihr => simp [groupRest?, iha, ihr, Function.comp_def]

/-- A brace group with balanced content is split off whole. -/
theorem braceGroup?_of_balanced {a : Text} (ha : Balanced a) (b : Text) :
    braceGroup? ('{' :: (a ++ '}' :: b)) = some (a, b) := by
  simp [braceGroup?, groupRest?_append ha, groupRest?]

end TexSymbols

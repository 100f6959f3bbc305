import TexSymbols.Tex.Group

/-!
# What was split off is a group

* `groupRest?_eq_some` — the content stands in front of its closing brace, and is split off again
  whatever follows.
* `braceGroup?_eq_some` — the same for a whole group.
* `balanced_iff` — the contents of groups are the balanced texts.
* `braceGroup?_eq_some_iff` — a group is a balanced text in braces.
-/

namespace TexSymbols

variable {content rest : Text}

theorem groupRest?_cons {c : Char} (h₁ : c ≠ '\\') (h₂ : c ≠ '{') (h₃ : c ≠ '}') (depth : Nat)
    (r : Text) :
    groupRest? depth (c :: r) = (groupRest? depth r).map fun p => (c :: p.1, p.2) := by
  rw [groupRest?.eq_def]
  split <;> simp_all

/-- A character that starts no escape in front of a group's end, opens no group and closes none, is
plain: a backslash would have taken the next character with it. -/
theorem plain_of_otherwise {depth : Nat} {c : Char} {r : Text}
    (hescape : ∀ d t, c = '\\' → r = d :: t → False) (hclose : depth = 0 → c = '}' → False)
    (hclose' : ∀ n, depth = n + 1 → c = '}' → False) (hr : r = content ++ '}' :: rest) :
    c ≠ '\\' ∧ c ≠ '}' := by
  constructor
  · intro hc
    cases hcontent : content with
    | nil => exact hescape '}' rest hc (by rw [hr, hcontent]; rfl)
    | cons d t => exact hescape d (t ++ '}' :: rest) hc (by rw [hr, hcontent]; rfl)
  · intro hc
    cases depth with
    | zero => exact hclose rfl hc
    | succ depth => exact hclose' depth rfl hc

/-- The content and the remainder make up the text, and the remainder does not matter. -/
theorem groupRest?_eq_some {depth : Nat} {t : Text}
    (h : groupRest? depth t = some (content, rest)) :
    t = content ++ '}' :: rest ∧
      ∀ u, groupRest? depth (content ++ '}' :: u) = some (content, u) := by
  fun_induction groupRest? depth t generalizing content rest with
  | case1 depth c r ih =>
    obtain ⟨p, hp, heq⟩ := Option.map_eq_some_iff.1 h
    cases heq
    obtain ⟨rfl, hu⟩ := ih hp
    exact ⟨rfl, fun u => by simp [groupRest?, hu u]⟩
  | case2 depth r ih =>
    obtain ⟨p, hp, heq⟩ := Option.map_eq_some_iff.1 h
    cases heq
    obtain ⟨rfl, hu⟩ := ih hp
    exact ⟨rfl, fun u => by simp [groupRest?, hu u]⟩
  | case3 r =>
    cases h
    exact ⟨rfl, fun u => by simp [groupRest?]⟩
  | case4 depth r ih =>
    obtain ⟨p, hp, heq⟩ := Option.map_eq_some_iff.1 h
    cases heq
    obtain ⟨rfl, hu⟩ := ih hp
    exact ⟨rfl, fun u => by simp [groupRest?, hu u]⟩
  | case5 depth c r hescape hopen hclose hclose' ih =>
    obtain ⟨p, hp, heq⟩ := Option.map_eq_some_iff.1 h
    cases heq
    obtain ⟨rfl, hu⟩ := ih hp
    obtain ⟨hc, hbrace⟩ := plain_of_otherwise hescape hclose hclose' rfl
    refine ⟨rfl, fun u => ?_⟩
    rw [List.cons_append, groupRest?_cons hc hopen hbrace, hu u]
    rfl
  | case6 => cases h

/-- A group is split off again in front of any other remainder. -/
theorem braceGroup?_eq_some {t : Text} (h : braceGroup? t = some (content, rest)) :
    t = '{' :: (content ++ '}' :: rest) ∧
      ∀ u, braceGroup? ('{' :: (content ++ '}' :: u)) = some (content, u) := by
  unfold braceGroup? at h
  split at h
  · obtain ⟨rfl, hu⟩ := groupRest?_eq_some h
    exact ⟨rfl, hu⟩
  · cases h

/-! ## Contents of groups are balanced -/

/-- Texts that close `depth` groups and are balanced before, between and behind the closing braces. -/
def Closes : Nat → Text → Prop
  | 0, t => Balanced t
  | depth + 1, t => ∃ a b, t = a ++ '}' :: b ∧ Balanced a ∧ Closes depth b

theorem Closes.append {depth : Nat} {a t : Text} (ha : Balanced a) (h : Closes depth t) :
    Closes depth (a ++ t) := by
  cases depth with
  | zero => exact ha.append h
  | succ depth =>
    obtain ⟨b, c, rfl, hb, hc⟩ := h
    exact ⟨a ++ b, c, (List.append_assoc ..).symm, ha.append hb, hc⟩

theorem closes_of_groupRest? {depth : Nat} {t : Text}
    (h : groupRest? depth t = some (content, rest)) : Closes depth content := by
  fun_induction groupRest? depth t generalizing content rest with
  | case1 depth c r ih =>
    obtain ⟨p, hp, heq⟩ := Option.map_eq_some_iff.1 h
    cases heq
    exact (ih hp).append (.escaped c .nil)
  | case2 depth r ih =>
    obtain ⟨p, hp, heq⟩ := Option.map_eq_some_iff.1 h
    cases heq
    obtain ⟨a, b, hab, ha, hb⟩ := ih hp
    -- the brace is closed by the first of the closing braces
    have hgroup : '{' :: p.1 = '{' :: (a ++ ['}']) ++ b := by simp [hab]
    rw [hgroup]
    exact hb.append (.group ha .nil)
  | case3 r =>
    cases h
    exact .nil
  | case4 depth r ih =>
    obtain ⟨p, hp, heq⟩ := Option.map_eq_some_iff.1 h
    cases heq
    exact ⟨[], p.1, rfl, .nil, ih hp⟩
  | case5 depth c r hescape hopen hclose hclose' ih =>
    obtain ⟨p, hp, heq⟩ := Option.map_eq_some_iff.1 h
    cases heq
    obtain ⟨hc, hbrace⟩ := plain_of_otherwise hescape hclose hclose' (groupRest?_eq_some hp).1
    exact (ih hp).append (.plain hc hopen hbrace .nil)
  | case6 => cases h

/-- **The balanced texts are those that a pair of braces encloses.** -/
theorem balanced_iff {a : Text} : Balanced a ↔ braceGroup? ('{' :: (a ++ ['}'])) = some (a, []) :=
  ⟨fun h => braceGroup?_of_balanced h [], fun h => closes_of_groupRest? h⟩

/-- **A group is split off exactly if it stands at the beginning of the text.** -/
theorem braceGroup?_eq_some_iff {t : Text} :
    braceGroup? t = some (content, rest) ↔ t = '{' :: (content ++ '}' :: rest) ∧ Balanced content := by
  constructor
  · intro h
    obtain ⟨ht, hu⟩ := braceGroup?_eq_some h
    exact ⟨ht, balanced_iff.2 (hu [])⟩
  · rintro ⟨rfl, hcontent⟩
    exact braceGroup?_of_balanced hcontent rest

end TexSymbols

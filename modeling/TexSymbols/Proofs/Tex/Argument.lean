import Mathlib.Data.List.Basic
import TexSymbols.Tex.Argument

/-!
# Labels in front of further text

* `exists_of_labels_ne_nil` — where there is a label, its command stands; `labels_eq_nil` — a place
  where it does not.
* `labels_prefix_append` — text that is added behind leaves the labels before it as they are.
-/

namespace TexSymbols

variable {t u v : Text} {label : Text}

/-- What a label begins with. -/
def labelOpening : Text := '\\' :: (("label" : Text) ++ ['{'])

theorem argumentAt?_label (t : Text) :
    argumentAt? ["label"] t = (Text.removePrefix? labelOpening t).bind argumentRest? := by
  rw [argumentAt?, List.findSome?_cons]
  cases h : (Text.removePrefix? labelOpening t).bind argumentRest? with
  | none => simp only [labelOpening] at h; rw [h]; rfl
  | some label => simp only [labelOpening] at h; rw [h]

theorem argumentAt?_label_eq_some :
    argumentAt? ["label"] t = some label ↔
      ∃ r, t = labelOpening ++ r ∧ argumentRest? r = some label := by
  rw [argumentAt?_label, Option.bind_eq_some_iff]
  simp only [Text.removePrefix?_eq_some]

/-- What stands before the first brace is an argument if that brace closes it. -/
theorem argumentRest?_split (hopen : '{' ∉ label) (hclose : '}' ∉ label) (r : Text) :
    argumentRest? (label ++ '}' :: r) = some label := by
  have hall : ∀ c ∈ label, (c != '{' && c != '}') = true := by
    intro c hc
    simp only [Bool.and_eq_true, bne_iff_ne]
    exact ⟨fun heq => hopen (heq ▸ hc), fun heq => hclose (heq ▸ hc)⟩
  rw [argumentRest?, List.dropWhile_append_of_pos hall, List.takeWhile_append_of_pos hall]
  simp

/-- A closed argument stays one in front of further text. -/
theorem argumentRest?_append (h : argumentRest? t = some label) (u : Text) :
    argumentRest? (t ++ u) = some label := by
  obtain ⟨⟨r, rfl⟩, hopen, hclose⟩ := argumentRest?_eq_some h
  rw [List.append_assoc, List.cons_append]
  exact argumentRest?_split hopen hclose _

/-- An argument that only further text closes holds no opening brace so far. -/
theorem notMem_of_argumentRest?_eq_none (h : argumentRest? t = none)
    (hu : argumentRest? (t ++ u) = some label) : '{' ∉ t := by
  intro hmem
  obtain ⟨⟨r, hr⟩, hopen, hclose⟩ := argumentRest?_eq_some hu
  rcases List.append_eq_append_iff.1 hr with ⟨more, rfl, -⟩ | ⟨more, rfl, hrest⟩
  · exact hopen (List.mem_append_left _ hmem)
  · cases more with
    | nil => exact hopen (by simpa using hmem)
    | cons c more =>
      -- the brace that closes it stands in `t`
      obtain ⟨rfl, -⟩ := List.cons.inj hrest
      rw [argumentRest?_split hopen hclose] at h
      cases h

/-- Where there is a label, its command stands. -/
theorem exists_of_labels_ne_nil (h : labels t ≠ []) : ∃ a b, t = a ++ labelOpening ++ b := by
  unfold labels at h
  induction t with
  | nil => exact absurd rfl h
  | cons c r ih =>
    rw [arguments] at h
    cases harg : argumentAt? ["label"] (c :: r) with
    | some label =>
      obtain ⟨b, hb, -⟩ := argumentAt?_label_eq_some.1 harg
      exact ⟨[], b, hb⟩
    | none =>
      rw [harg] at h
      obtain ⟨a, b, rfl⟩ := ih h
      exact ⟨c :: a, b, by simp⟩

/-- No label begins where first no backslash stands, and then no brace. -/
theorem labels_eq_nil (ht : '\\' ∉ t) (hu : '{' ∉ u) : labels (t ++ u) = [] := by
  by_contra hne
  obtain ⟨a, b, hsplit⟩ := exists_of_labels_ne_nil hne
  rw [labelOpening, List.append_assoc, List.cons_append] at hsplit
  have hbrace : '{' ∈ ("label" : Text) ++ ['{'] ++ b := by simp
  rcases List.append_eq_append_iff.1 hsplit with ⟨more, -, hmore⟩ | ⟨more, rfl, hmore⟩
  · exact hu (by rw [hmore]; exact List.mem_append_right _ (List.mem_cons_of_mem _ hbrace))
  · cases more with
    | nil => exact hu (by rw [← List.nil_append u, ← hmore]; exact List.mem_cons_of_mem _ hbrace)
    | cons d more =>
      obtain ⟨rfl, -⟩ := List.cons.inj hmore
      exact ht (by simp)

/-- **Text that is added behind leaves the labels before it as they are.** -/
theorem labels_prefix_append (t u : Text) : labels t <+: labels (t ++ u) := by
  unfold labels
  induction t with
  | nil => exact List.nil_prefix
  | cons c r ih =>
    rw [List.cons_append, arguments, arguments]
    cases hbefore : argumentAt? ["label"] (c :: r) with
    | some label =>
      obtain ⟨s, hs, hlabel⟩ := argumentAt?_label_eq_some.1 hbefore
      have hafter : argumentAt? ["label"] (c :: (r ++ u)) = some label := by
        refine argumentAt?_label_eq_some.2 ⟨s ++ u, ?_, argumentRest?_append hlabel u⟩
        rw [← List.cons_append, hs, List.append_assoc]
      rw [hafter]
      exact (List.prefix_cons_inj _).2 ih
    | none =>
      cases hafter : argumentAt? ["label"] (c :: (r ++ u)) with
      | none => exact ih
      | some label =>
        -- the label goes on in the further text, so that none begins behind its backslash
        have hnil : labels r = [] := by
          obtain ⟨s, hs, hlabel⟩ := argumentAt?_label_eq_some.1 hafter
          rw [← List.cons_append] at hs
          rcases List.append_eq_append_iff.1 hs with ⟨more, hmore, -⟩ | ⟨more, hmore, rfl⟩
          · obtain ⟨rfl, hr⟩ := List.cons.inj hmore
            have hescape : '\\' ∉ r := by
              intro hmem
              have hword : '\\' ∈ ("label" : Text) ++ ['{'] := by
                rw [hr]
                exact List.mem_append_left more hmem
              exact absurd hword (by decide)
            simpa using labels_eq_nil hescape (u := []) (by simp)
          · have hopen : argumentRest? more = none := by
              rw [argumentAt?_label, hmore, Text.removePrefix?_eq_some.2 rfl] at hbefore
              exact hbefore
            obtain ⟨rfl, rfl⟩ := List.cons.inj hmore
            exact labels_eq_nil (by decide) (notMem_of_argumentRest?_eq_none hopen hlabel)
        rw [← labels, hnil]
        exact List.nil_prefix

end TexSymbols

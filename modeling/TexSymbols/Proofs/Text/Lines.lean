import TexSymbols.Text

/-!
# Lines of a text

* `notMem_of_mem_lines` — no line holds a line feed; `subset_of_mem_lines` — nor anything that is
  not in the text.
* `lines_append` — a line that is ended by a line feed comes first; `lines_eq_singleton` — one that
  is not ended; `lines_append_of_ended` — the lines of a text that is ended come first.
-/

namespace TexSymbols.Text

variable {line : Text}

theorem notMem_of_mem_lines {t : Text} (h : line ∈ lines t) : '\n' ∉ line := by
  fun_induction lines t generalizing line with
  | case1 => simp at h
  | case2 r ih =>
    rcases List.mem_cons.1 h with rfl | h
    · simp
    · exact ih h
  | case3 r ih =>
    rcases List.mem_cons.1 h with rfl | h
    · simp
    · exact ih h
  | case4 c r _ hc _ ih =>
    obtain rfl := List.mem_singleton.1 h
    simpa [eq_comm] using hc
  | case5 c r _ hc first others hlines ih =>
    rcases List.mem_cons.1 h with rfl | h
    · have hfirst : '\n' ∉ first := ih (by rw [hlines]; exact List.mem_cons_self)
      simp only [List.mem_cons, not_or]
      exact ⟨fun heq => hc heq.symm, hfirst⟩
    · exact ih (by rw [hlines]; exact List.mem_cons_of_mem _ h)

/-- Lines hold characters of the text only. -/
theorem subset_of_mem_lines {t : Text} (h : line ∈ lines t) : line ⊆ t := by
  fun_induction lines t generalizing line with
  | case1 => simp at h
  | case2 r ih =>
    rcases List.mem_cons.1 h with rfl | h
    · exact List.nil_subset _
    · exact List.subset_cons_of_subset _ (List.subset_cons_of_subset _ (ih h))
  | case3 r ih =>
    rcases List.mem_cons.1 h with rfl | h
    · exact List.nil_subset _
    · exact List.subset_cons_of_subset _ (ih h)
  | case4 c r _ _ _ ih =>
    rw [List.mem_singleton.1 h]
    exact List.cons_subset_cons c (List.nil_subset r)
  | case5 c r _ _ first others hlines ih =>
    rcases List.mem_cons.1 h with rfl | h
    · exact List.cons_subset_cons c (ih (by rw [hlines]; exact List.mem_cons_self))
    · exact List.subset_cons_of_subset _ (ih (by rw [hlines]; exact List.mem_cons_of_mem _ h))

/-- A character that does not end a line belongs to the first line. -/
theorem lines_cons {c : Char} {r l : Text} {ls : List Text} (hc : c ≠ '\n')
    (hcr : ∀ r', c = '\r' → r ≠ '\n' :: r') (h : lines r = l :: ls) :
    lines (c :: r) = (c :: l) :: ls := by
  rw [lines.eq_4]
  · rw [h]
  · exact fun r' hc' hr => hcr r' hc' hr
  · exact hc

/-- The first line of a text that does not begin with the end of a line. -/
theorem exists_lines_cons {c : Char} (hc : c ≠ '\n') (hcr : c ≠ '\r') (r : Text) :
    ∃ l ls, lines (c :: r) = (c :: l) :: ls := by
  have hother : ∀ r', c = '\r' → r = '\n' :: r' → False := fun _ heq _ => hcr heq
  cases hlines : lines r with
  | nil => exact ⟨[], [], by rw [lines.eq_4 c r hother hc, hlines]⟩
  | cons l ls => exact ⟨l, ls, by rw [lines.eq_4 c r hother hc, hlines]⟩

/-- A line that is ended by a line feed alone. -/
theorem lines_append (hline : '\n' ∉ line) (hend : line.getLast? ≠ some '\r') (t : Text) :
    lines (line ++ '\n' :: t) = line :: lines t := by
  induction line with
  | nil => rw [List.nil_append, lines]
  | cons c line ih =>
    rw [List.mem_cons, not_or] at hline
    have hrest : line.getLast? ≠ some '\r' := by
      cases line with
      | nil => simp
      | cons => rwa [List.getLast?_cons_cons] at hend
    refine lines_cons (Ne.symm hline.1) ?_ (ih hline.2 hrest)
    rintro r' rfl heq
    cases line with
    | nil => simp at hend
    | cons d line =>
      obtain ⟨rfl, -⟩ := List.cons.inj heq
      exact hline.2 List.mem_cons_self

/-- Lines that are ended by line feeds come first. -/
theorem lines_foldr {ls : List Text} (h : ∀ line ∈ ls, '\n' ∉ line ∧ line.getLast? ≠ some '\r')
    (t : Text) :
    lines (ls.foldr (fun line rest => line ++ '\n' :: rest) t) = ls ++ lines t := by
  induction ls with
  | nil => rfl
  | cons line ls ih =>
    obtain ⟨hline, hend⟩ := h line List.mem_cons_self
    rw [List.foldr_cons, lines_append hline hend, ih fun l hl => h l (List.mem_cons_of_mem _ hl),
      List.cons_append]

theorem lines_ne_nil {t : Text} (h : t ≠ []) : lines t ≠ [] := by
  fun_cases lines t with
  | case1 => exact absurd rfl h
  | case2 => exact List.cons_ne_nil _ _
  | case3 => exact List.cons_ne_nil _ _
  | case4 => exact List.cons_ne_nil _ _
  | case5 => exact List.cons_ne_nil _ _

/-- The lines of a text at whose end a line is ended come first. -/
theorem lines_append_of_ended {t : Text} (h : t = [] ∨ t.getLast? = some '\n') (later : Text) :
    lines (t ++ later) = lines t ++ lines later := by
  have htail : ∀ {c : Char} {r : Text}, c :: r = [] ∨ (c :: r).getLast? = some '\n' →
      r = [] ∨ r.getLast? = some '\n' := by
    rintro c r (hnil | hlast)
    · cases hnil
    · cases r with
      | nil => exact .inl rfl
      | cons d r => exact .inr (by rwa [List.getLast?_cons_cons] at hlast)
  fun_induction lines t with
  | case1 => rfl
  | case2 r ih =>
    show [] :: lines (r ++ later) = _
    rw [ih (htail (htail h)), List.cons_append]
  | case3 r ih =>
    rw [List.cons_append, lines, ih (htail h), List.cons_append]
  | case4 c r _ hc hlines ih =>
    -- a line that is not ended would be the last one
    cases r with
    | nil => exact absurd (by simpa using h) hc
    | cons d r => exact absurd hlines (lines_ne_nil (List.cons_ne_nil _ _))
  | case5 c r hcr hc first others hlines ih =>
    have hrest : lines (r ++ later) = first :: (others ++ lines later) := by
      rw [ih (htail h), hlines, List.cons_append]
    refine lines_cons hc ?_ hrest
    rintro r' rfl heq
    cases r with
    | nil => cases hlines
    | cons d r =>
      obtain ⟨rfl, -⟩ := List.cons.inj heq
      exact hcr r rfl rfl

theorem lines_eq_singleton (hline : '\n' ∉ line) (hne : line ≠ []) : lines line = [line] := by
  induction line with
  | nil => exact absurd rfl hne
  | cons c line ih =>
    rw [List.mem_cons, not_or] at hline
    cases line with
    | nil =>
      rw [lines.eq_4]
      · rfl
      · simp
      · exact Ne.symm hline.1
    | cons d line =>
      refine lines_cons (Ne.symm hline.1) ?_ (ih hline.2 (List.cons_ne_nil _ _))
      rintro r' - heq
      obtain ⟨rfl, -⟩ := List.cons.inj heq
      exact hline.2 List.mem_cons_self

end TexSymbols.Text

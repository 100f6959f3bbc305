import TexSymbols.Proofs.Tex.Command
import TexSymbols.Tex.Comment

/-!
# Where the comment of a line begins

* `NoComment`, `CommentBehind` — a comment begins at the first percent sign behind backslashes in
  pairs.
* `stripCommentFrom_cons` — one character: the flag of `stripCommentFrom` says whether the
  backslashes so far come in pairs; `stripCommentFrom_append` — a text without a comment.
* `stripComment_of_commentBehind`, `stripComment_of_noComment` — what is kept of a line.
* `CommentCut`, `commentCut` — what is kept does not depend on the comment, and cutting the comment
  off leaves the commands as they are.
-/

namespace TexSymbols

variable {line kept comment : Text}

/-- Every percent sign of the text is escaped: the backslashes right before it do not come in
pairs. -/
def NoComment (t : Text) : Prop :=
  ∀ before after, t = before ++ '%' :: after → ¬ Even (endingBackslashes before)

/-- The line has a comment, which begins behind `kept` at the first percent sign that is not
escaped. -/
structure CommentBehind (line kept comment : Text) : Prop where
  line_eq : line = kept ++ '%' :: comment
  even : Even (endingBackslashes kept)
  first : NoComment kept

/-! ## The flag -/

/-- Whether the text ends with a backslash that escapes what follows. -/
def endsEscaping (t : Text) : Bool := !decide (Even (endingBackslashes t))

theorem endsEscaping_of_even {t : Text} (h : Even (endingBackslashes t)) :
    endsEscaping t = false := by
  rw [endsEscaping, decide_eq_true h, Bool.not_true]

theorem endsEscaping_of_not_even {t : Text} (h : ¬ Even (endingBackslashes t)) :
    endsEscaping t = true := by
  rw [endsEscaping, decide_eq_false h, Bool.not_false]

theorem endsEscaping_concat (t : Text) (c : Char) :
    endsEscaping (t ++ [c]) = if c = '\\' then !endsEscaping t else false := by
  unfold endsEscaping
  rw [endingBackslashes_concat]
  split
  · simp only [Nat.even_add_one, decide_not]
  · rfl

/-- One character, behind the text `done`. -/
theorem stripCommentFrom_cons (done : Text) (c : Char) (r : Text) :
    stripCommentFrom (endsEscaping done) (c :: r) =
      if c = '%' ∧ Even (endingBackslashes done) then []
      else c :: stripCommentFrom (endsEscaping (done ++ [c])) r := by
  rw [endsEscaping_concat]
  by_cases hescape : c = '\\'
  · subst hescape
    rw [stripCommentFrom, if_neg fun h => absurd h.1 (by decide), if_pos rfl]
  by_cases hpercent : c = '%'
  · subst hpercent
    rw [if_neg hescape]
    by_cases heven : Even (endingBackslashes done)
    · rw [endsEscaping_of_even heven, if_pos ⟨rfl, heven⟩]
      rfl
    · rw [endsEscaping_of_not_even heven, if_neg fun h => heven h.2]
      rfl
  · rw [stripCommentFrom, if_neg fun h => hpercent h.1, if_neg hescape]
    · exact hescape
    · exact hpercent

/-- **A text without a comment is kept**, and what follows it is read with the flag that it
leaves. -/
theorem stripCommentFrom_append {t : Text} (done r : Text)
    (h : ∀ before after, t = before ++ '%' :: after → ¬ Even (endingBackslashes (done ++ before))) :
    stripCommentFrom (endsEscaping done) (t ++ r) =
      t ++ stripCommentFrom (endsEscaping (done ++ t)) r := by
  induction t generalizing done with
  | nil => simp
  | cons c t ih =>
    have hplain : ¬ (c = '%' ∧ Even (endingBackslashes done)) := by
      rintro ⟨rfl, heven⟩
      exact h [] t rfl (by rwa [List.append_nil])
    have hrest := ih (done ++ [c]) fun before after ht => by
      have hbefore := h (c :: before) after (by rw [ht]; rfl)
      rwa [List.append_assoc, List.singleton_append]
    rw [List.cons_append, stripCommentFrom_cons, if_neg hplain, hrest, List.append_assoc,
      List.singleton_append]
    rfl

/-! ## What is kept -/

theorem stripComment_append (h : NoComment kept) (r : Text) :
    stripComment (kept ++ r) = kept ++ stripCommentFrom (endsEscaping kept) r := by
  have happend := stripCommentFrom_append [] r h
  rwa [List.nil_append] at happend

theorem stripComment_of_noComment (h : NoComment line) : stripComment line = line := by
  have hnil := stripComment_append h []
  rwa [List.append_nil, stripCommentFrom, List.append_nil] at hnil

theorem stripComment_of_commentBehind (h : CommentBehind line kept comment) :
    stripComment line = kept := by
  rw [h.line_eq, stripComment_append h.first, stripCommentFrom_cons, if_pos ⟨rfl, h.even⟩,
    List.append_nil]

theorem noComment_concat {t : Text} {c : Char} (h : NoComment t)
    (hc : ¬ (c = '%' ∧ Even (endingBackslashes t))) : NoComment (t ++ [c]) := by
  intro before after hsplit
  rcases List.eq_nil_or_concat' after with rfl | ⟨after, d, rfl⟩
  · obtain ⟨rfl, hpercent⟩ := List.append_inj' hsplit rfl
    obtain rfl : c = '%' := by simpa using hpercent
    exact fun heven => hc ⟨rfl, heven⟩
  · rw [← List.cons_append, ← List.append_assoc] at hsplit
    exact h before after (List.append_inj' hsplit rfl).1

/-- A line has a comment or it has none. -/
theorem commentBehind_or_noComment (line : Text) :
    (∃ kept comment, CommentBehind line kept comment) ∨ NoComment line := by
  induction line using List.reverseRecOn with
  | nil => exact .inr fun before after h => by simp at h
  | append_singleton t c ih =>
    rcases ih with ⟨kept, comment, h⟩ | hnone
    · exact .inl ⟨kept, comment ++ [c], by rw [h.line_eq]; simp, h.even, h.first⟩
    · by_cases hc : c = '%' ∧ Even (endingBackslashes t)
      · exact .inl ⟨t, [], by rw [hc.1], hc.2, hnone⟩
      · exact .inr (noComment_concat hnone hc)

/-- What is left behind the part that is kept. -/
def behindKept (line : Text) : Text := line.drop (stripComment line).length

theorem stripComment_append_behindKept (line : Text) :
    stripComment line ++ behindKept line = line :=
  List.prefix_iff_eq_append.1 <| stripCommentFrom_prefix false line

/-- Behind what is kept begins the comment, or nothing follows. -/
theorem behindKept_cases (line : Text) :
    behindKept line = [] ∨ Even (endingBackslashes (stripComment line)) ∧
      ∃ comment, behindKept line = '%' :: comment := by
  rcases commentBehind_or_noComment line with ⟨kept, comment, h⟩ | hnone
  · rw [behindKept, stripComment_of_commentBehind h]
    exact .inr ⟨h.even, comment, by rw [h.line_eq, List.drop_left]⟩
  · exact .inl (by rw [behindKept, stripComment_of_noComment hnone, List.drop_length])

/-- **Cutting a comment off cuts no command.** -/
theorem commandPlaces_stripComment (line : Text) :
    commandPlaces line = commandPlaces (stripComment line) ++
      (commandPlaces (behindKept line)).map fun p => (stripComment line ++ p.1, p.2) := by
  rcases behindKept_cases line with hnil | ⟨heven, comment, hcomment⟩
  · have hline := stripComment_append_behindKept line
    rw [hnil, List.append_nil] at hline
    rw [hline, hnil]
    simp [commandPlaces]
  · rw [← commandPlaces_append heven, stripComment_append_behindKept]
    rw [hcomment]
    exact endsRun_cons.2 (by decide)

theorem mem_commandPlaces_stripComment {p : Text × Text} :
    p ∈ commandPlaces (stripComment line) ↔
      p ∈ commandPlaces line ∧ p.1.length < (stripComment line).length := by
  rw [commandPlaces_stripComment line, List.mem_append, List.mem_map]
  constructor
  · intro h
    refine ⟨.inl h, ?_⟩
    obtain ⟨after, hsplit, hcommand, -⟩ := mem_commandPlaces_iff.1 h
    obtain ⟨c, letters, hp, -⟩ := hcommand.eq_cons
    have hlength := congrArg List.length hsplit
    rw [hp] at hlength
    simp only [List.length_append, List.length_cons] at hlength
    omega
  · rintro ⟨h | ⟨q, -, rfl⟩, hlt⟩
    · exact h
    · rw [List.length_append] at hlt
      omega

/-- What is kept of a line, and its commands. -/
structure CommentCut (line : Text) : Prop where
  /-- A line with a comment is kept up to it. -/
  kept : ∀ kept comment, CommentBehind line kept comment → stripComment line = kept
  /-- Any other line is kept as a whole. -/
  whole : NoComment line → stripComment line = line
  commentBehind_or_noComment : (∃ kept comment, CommentBehind line kept comment) ∨ NoComment line
  /-- The text of the comment does not matter. -/
  independent : ∀ kept comment, CommentBehind line kept comment →
    ∀ other, stripComment (kept ++ '%' :: other) = stripComment line
  /-- The commands of the line are those of what is kept and those of the remainder. -/
  commands_eq : commands line = commands (stripComment line) ++ commands (behindKept line)
  /-- What is kept has the commands of the line that begin in it. -/
  commandPlaces_iff : ∀ p, p ∈ commandPlaces (stripComment line) ↔
    p ∈ commandPlaces line ∧ p.1.length < (stripComment line).length

/-- **A comment is cut off at the first percent sign that is not escaped**, and no command is. -/
theorem commentCut (line : Text) : CommentCut line where
  kept _ _ := stripComment_of_commentBehind
  whole := stripComment_of_noComment
  commentBehind_or_noComment := commentBehind_or_noComment line
  independent kept comment h other := by
    rw [stripComment_of_commentBehind h]
    exact stripComment_of_commentBehind ⟨rfl, h.even, h.first⟩
  commands_eq := by
    rw [← map_snd_commandPlaces, commandPlaces_stripComment, List.map_append, List.map_map,
      map_snd_commandPlaces, ← map_snd_commandPlaces (behindKept line)]
    rfl
  commandPlaces_iff _ := mem_commandPlaces_stripComment

/-- The first percent sign is escaped, the second one is not. -/
example : stripComment "50\\% off\\\\% note" = "50\\% off\\\\" := by decide

end TexSymbols

import Mathlib.Algebra.Group.Nat.Even
import Mathlib.Data.List.DropRight
import Mathlib.Data.List.Nodup
import TexSymbols.Proofs.Tex.Definition
import TexSymbols.Proofs.Text.Run
import TexSymbols.Tex.Command

/-!
# Where commands stand in a text

* `commandPlaces` — the commands of a text, each with what stands before it;
  `map_snd_commandPlaces` — they are those of `commands`.
* `endingBackslashes` — how many backslashes a text ends with.
* `CommandBehind`, `mem_commandPlaces_iff` — a command stands where a backslash with letters follows
  an even number of backslashes.
* `pairwise_commandPlaces` — commands are found from the left to the right.
* `commandPlaces_append` — cutting a text where no command and no escape is open.
-/

namespace TexSymbols

variable {t before command : Text}

/-- Every command of a text behind what stands before it. -/
def commandPlaces : Text → List (Text × Text)
  | '\\' :: c :: r =>
    (if isLetter c then [([], '\\' :: c :: r.takeWhile isLetter)] else []) ++
      (commandPlaces r).map fun p => ('\\' :: c :: p.1, p.2)
  | c :: r => (commandPlaces r).map fun p => (c :: p.1, p.2)
  | [] => []

theorem commandPlaces_cons_of_ne {c : Char} (h : c ≠ '\\') (r : Text) :
    commandPlaces (c :: r) = (commandPlaces r).map fun p => (c :: p.1, p.2) := by
  rw [commandPlaces]
  intro d s hc
  exact absurd hc h

/-- The places are those of the commands. -/
theorem map_snd_commandPlaces (t : Text) : (commandPlaces t).map Prod.snd = commands t := by
  fun_induction commandPlaces t with
  | case1 c r ih =>
    rw [commands, List.map_append, List.map_map, ← ih]
    split <;> rfl
  | case2 c r hescape ih =>
    have hrest : commands (c :: r) = commands r := by
      rw [commands]
      exact hescape
    rw [hrest, List.map_map]
    exact ih
  | case3 => rfl

/-! ## Backslashes in pairs -/

/-- How many backslashes a text ends with. -/
def endingBackslashes (t : Text) : Nat := (t.rtakeWhile (· = '\\')).length

@[simp] theorem endingBackslashes_nil : endingBackslashes [] = 0 := rfl

theorem endingBackslashes_concat (t : Text) (c : Char) :
    endingBackslashes (t ++ [c]) = if c = '\\' then endingBackslashes t + 1 else 0 := by
  unfold endingBackslashes
  rw [List.rtakeWhile_concat]
  split <;> simp_all

theorem endingBackslashes_cons_of_ne {c : Char} (h : c ≠ '\\') (t : Text) :
    endingBackslashes (c :: t) = endingBackslashes t := by
  induction t using List.reverseRecOn with
  | nil => simpa [h] using endingBackslashes_concat [] c
  | append_singleton t x ih =>
    rw [← List.cons_append, endingBackslashes_concat, endingBackslashes_concat, ih]

theorem endingBackslashes_eq_zero (h : t.getLast? ≠ some '\\') : endingBackslashes t = 0 := by
  rcases List.eq_nil_or_concat' t with rfl | ⟨t, c, rfl⟩
  · rfl
  · have hc : c ≠ '\\' := by simpa using h
    rw [endingBackslashes_concat, if_neg hc]

/-- Behind a text that does not end with a backslash, the backslashes that are added count. -/
theorem endingBackslashes_append_replicate (h : t.getLast? ≠ some '\\') (n : Nat) :
    endingBackslashes (t ++ List.replicate n '\\') = n := by
  induction n with
  | zero => rw [List.replicate_zero, List.append_nil, endingBackslashes_eq_zero h]
  | succ n ih =>
    rw [List.replicate_succ', ← List.append_assoc, endingBackslashes_concat, if_pos rfl, ih]

/-- A text is made of the backslashes that it ends with and what stands before them. -/
theorem exists_endingBackslashes (t : Text) :
    ∃ a, t = a ++ List.replicate (endingBackslashes t) '\\' ∧ a.getLast? ≠ some '\\' := by
  induction t using List.reverseRecOn with
  | nil => exact ⟨[], rfl, nofun⟩
  | append_singleton t c ih =>
    rw [endingBackslashes_concat]
    split
    · rename_i hc
      obtain ⟨a, ht, ha⟩ := ih
      refine ⟨a, ?_, ha⟩
      rw [List.replicate_succ', ← List.append_assoc, ← ht, hc]
    · rename_i hc
      exact ⟨t ++ [c], by simp, by simpa using hc⟩

/-- A backslash and the character behind it leave the pairs as they are. -/
theorem even_endingBackslashes_escape (c : Char) (t : Text) :
    Even (endingBackslashes ('\\' :: c :: t)) ↔ Even (endingBackslashes t) := by
  induction t using List.reverseRecOn with
  | nil =>
    have hpair := endingBackslashes_concat ['\\'] c
    have hone : endingBackslashes ['\\'] = 1 := by simpa using endingBackslashes_concat [] '\\'
    rw [List.singleton_append, hone] at hpair
    rw [hpair]
    split <;> decide
  | append_singleton t x ih =>
    rw [← List.cons_append, ← List.cons_append, endingBackslashes_concat, endingBackslashes_concat]
    split
    · rw [Nat.even_add_one, Nat.even_add_one, ih]
    · rfl

/-- Where the backslashes at the end of a text come in pairs, a backslash at its beginning has
something to escape. -/
theorem ne_backslash_of_even {c : Char} (hescape : ∀ d s, c = '\\' → t = d :: s → False)
    (h : Even (endingBackslashes (c :: t))) : c ≠ '\\' := by
  rintro rfl
  cases t with
  | nil => exact absurd h (by decide)
  | cons d s => exact hescape d s rfl rfl

/-! ## Commands -/

/-- A command begins with a backslash and a letter. -/
theorem IsCommand.eq_cons (h : IsCommand command) :
    ∃ c letters, command = '\\' :: c :: letters ∧ isLetter c = true ∧
      ∀ d ∈ letters, isLetter d = true := by
  obtain ⟨_ | ⟨c, letters⟩, hne, hletters, rfl⟩ := h
  · exact absurd rfl hne
  · obtain ⟨hc, hletters⟩ := List.forall_mem_cons.1 hletters
    exact ⟨c, letters, rfl, hc, hletters⟩

/-- The command stands in `t` behind `before`, with all its letters, after backslashes in pairs. -/
def CommandBehind (before command t : Text) : Prop :=
  ∃ after, t = before ++ (command ++ after) ∧ IsCommand command ∧ EndsRun isLetter after ∧
    Even (endingBackslashes before)

namespace CommandBehind

variable {c : Char} {r : Text}

theorem ne_nil (h : CommandBehind before command t) : t ≠ [] := by
  obtain ⟨after, rfl, hcommand, -⟩ := h
  obtain ⟨d, letters, rfl, -⟩ := hcommand.eq_cons
  simp

/-- At the beginning of a text stands at most the command with all letters that follow. -/
theorem nil_iff :
    CommandBehind [] command ('\\' :: c :: r) ↔
      isLetter c = true ∧ command = '\\' :: c :: r.takeWhile isLetter := by
  constructor
  · rintro ⟨after, hsplit, hcommand, hafter, -⟩
    obtain ⟨d, letters, rfl, hd, hletters⟩ := hcommand.eq_cons
    obtain ⟨rfl, rfl⟩ : c = d ∧ r = letters ++ after := by simpa using hsplit
    rw [takeWhile_run hletters hafter]
    exact ⟨hd, rfl⟩
  · rintro ⟨hc, rfl⟩
    have hletters : ∀ d ∈ c :: r.takeWhile isLetter, isLetter d = true :=
      List.forall_mem_cons.2 ⟨hc, fun d hd => List.mem_takeWhile_imp hd⟩
    refine ⟨r.dropWhile isLetter, ?_, ⟨_, List.cons_ne_nil _ _, hletters, rfl⟩,
      endsRun_dropWhile r, by simp⟩
    simp [List.takeWhile_append_dropWhile]

/-- A backslash takes the character behind it with it. -/
theorem escape_iff :
    CommandBehind before command ('\\' :: c :: r) ∧ before ≠ [] ↔
      ∃ later, CommandBehind later command r ∧ before = '\\' :: c :: later := by
  constructor
  · rintro ⟨⟨after, hsplit, hcommand, hafter, heven⟩, hne⟩
    rcases before with _ | ⟨x, _ | ⟨y, later⟩⟩
    · exact absurd rfl hne
    · obtain ⟨rfl, -⟩ := List.cons.inj hsplit
      exact absurd heven (by decide)
    · obtain ⟨rfl, rfl, hr⟩ : '\\' = x ∧ c = y ∧ r = later ++ (command ++ after) := by
        simpa using hsplit
      have hpairs := (even_endingBackslashes_escape c later).1 heven
      exact ⟨later, ⟨after, hr, hcommand, hafter, hpairs⟩, rfl⟩
  · rintro ⟨later, ⟨after, rfl, hcommand, hafter, heven⟩, rfl⟩
    exact ⟨⟨after, rfl, hcommand, hafter, (even_endingBackslashes_escape c _).2 heven⟩,
      List.cons_ne_nil _ _⟩

theorem plain_iff (hc : c ≠ '\\') :
    CommandBehind before command (c :: r) ↔
      ∃ later, CommandBehind later command r ∧ before = c :: later := by
  constructor
  · rintro ⟨after, hsplit, hcommand, hafter, heven⟩
    cases before with
    | nil =>
      obtain ⟨d, letters, rfl, -⟩ := hcommand.eq_cons
      exact absurd (List.cons.inj hsplit).1 hc
    | cons x later =>
      obtain ⟨rfl, hr⟩ := List.cons.inj hsplit
      rw [endingBackslashes_cons_of_ne hc] at heven
      exact ⟨later, ⟨after, hr, hcommand, hafter, heven⟩, rfl⟩
  · rintro ⟨later, ⟨after, rfl, hcommand, hafter, heven⟩, rfl⟩
    exact ⟨after, rfl, hcommand, hafter, by rwa [endingBackslashes_cons_of_ne hc]⟩

/-- Nothing stands behind a backslash at the end of a text. -/
theorem not_backslash : ¬ CommandBehind before command ['\\'] := by
  rintro ⟨after, hsplit, hcommand, -, -⟩
  obtain ⟨d, letters, rfl, -⟩ := hcommand.eq_cons
  have hlength := congrArg List.length hsplit
  simp only [List.length_append, List.length_cons, List.length_nil] at hlength
  omega

end CommandBehind

/-- Places with the text before them continued at its front. -/
theorem mem_map_front {places : List (Text × Text)} (f : Text → Text) :
    (before, command) ∈ places.map (fun p => (f p.1, p.2)) ↔
      ∃ later, (later, command) ∈ places ∧ before = f later := by
  rw [List.mem_map]
  constructor
  · rintro ⟨⟨later, _⟩, hp, heq⟩
    obtain ⟨rfl, rfl⟩ := Prod.mk.inj heq
    exact ⟨later, hp, rfl⟩
  · rintro ⟨later, hp, rfl⟩
    exact ⟨_, hp, rfl⟩

/-- **A command is a backslash with all the letters behind it, after backslashes in pairs.** -/
theorem mem_commandPlaces_iff :
    (before, command) ∈ commandPlaces t ↔ CommandBehind before command t := by
  fun_induction commandPlaces t generalizing before with
  | case1 c r ih =>
    have hhere : (before, command) ∈
        (if isLetter c then [([], '\\' :: c :: r.takeWhile isLetter)] else []) ↔
          before = [] ∧ CommandBehind [] command ('\\' :: c :: r) := by
      rw [CommandBehind.nil_iff]
      split <;> simp_all
    have hlater : (before, command) ∈ (commandPlaces r).map (fun p => ('\\' :: c :: p.1, p.2)) ↔
        CommandBehind before command ('\\' :: c :: r) ∧ before ≠ [] := by
      rw [CommandBehind.escape_iff]
      refine (mem_map_front fun b => '\\' :: c :: b).trans ?_
      exact exists_congr fun later => and_congr_left fun _ => ih
    rw [List.mem_append, hhere, hlater]
    constructor
    · rintro (⟨rfl, hbehind⟩ | ⟨hbehind, -⟩) <;> exact hbehind
    · intro hbehind
      by_cases hnil : before = []
      · exact .inl ⟨hnil, hnil ▸ hbehind⟩
      · exact .inr ⟨hbehind, hnil⟩
  | case2 c r hescape ih =>
    by_cases hc : c = '\\'
    · subst hc
      -- The last character is a backslash that escapes nothing.
      cases r with
      | nil => simpa [commandPlaces] using CommandBehind.not_backslash
      | cons d r => exact absurd rfl (hescape d r rfl)
    · rw [CommandBehind.plain_iff hc]
      refine (mem_map_front fun b => c :: b).trans ?_
      exact exists_congr fun later => and_congr_left fun _ => ih
  | case3 =>
    simpa using fun h : CommandBehind before command [] => h.ne_nil rfl

theorem prefix_of_mem_commandPlaces {p : Text × Text} (h : p ∈ commandPlaces t) :
    p.1 ++ p.2 <+: t := by
  obtain ⟨after, rfl, -⟩ := mem_commandPlaces_iff.1 h
  exact ⟨after, List.append_assoc ..⟩

/-! ## The order of the places -/

/-- Commands are found from the left to the right. -/
theorem pairwise_commandPlaces (t : Text) :
    (commandPlaces t).Pairwise fun p q => p.1.length < q.1.length := by
  fun_induction commandPlaces t with
  | case1 c r ih =>
    have hlater : ((commandPlaces r).map fun p => ('\\' :: c :: p.1, p.2)).Pairwise
        fun p q => p.1.length < q.1.length :=
      List.pairwise_map.2 (ih.imp fun h => by simpa using h)
    split
    · refine List.pairwise_cons.2 ⟨fun q hq => ?_, hlater⟩
      obtain ⟨p, -, rfl⟩ := List.mem_map.1 hq
      exact Nat.zero_lt_succ _
    · exact hlater
  | case2 c r _ ih => exact List.pairwise_map.2 (ih.imp fun h => by simpa using h)
  | case3 => exact .nil

/-- Commands are told apart by what stands before them. -/
theorem nodup_commandPlaces (t : Text) : ((commandPlaces t).map Prod.fst).Nodup :=
  List.pairwise_map.2 <| (pairwise_commandPlaces t).imp fun hlt heq =>
    absurd (congrArg List.length heq) (Nat.ne_of_lt hlt)

/-! ## Cutting a text -/

/-- **A text can be cut where no command and no escape is open**: behind backslashes in pairs, in
front of anything but a letter. -/
theorem commandPlaces_append {a b : Text} (ha : Even (endingBackslashes a))
    (hb : EndsRun isLetter b) :
    commandPlaces (a ++ b) =
      commandPlaces a ++ (commandPlaces b).map fun p => (a ++ p.1, p.2) := by
  fun_induction commandPlaces a with
  | case1 c r ih =>
    have hrest := ih ((even_endingBackslashes_escape c r).1 ha)
    rw [List.cons_append, List.cons_append, commandPlaces, takeWhile_append_of_endsRun hb, hrest,
      List.map_append, List.map_map, List.append_assoc]
    rfl
  | case2 c r hescape ih =>
    have hc : c ≠ '\\' := ne_backslash_of_even hescape ha
    have hrest := ih (by rwa [endingBackslashes_cons_of_ne hc] at ha)
    rw [List.cons_append, commandPlaces_cons_of_ne hc, hrest, List.map_append, List.map_map]
    rfl
  | case3 => simp

end TexSymbols

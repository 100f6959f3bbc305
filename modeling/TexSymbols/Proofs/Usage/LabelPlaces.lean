import TexSymbols.Proofs.Tex.ArgumentPlace

/-!
# Where labels stand, and where their commands do

The scan for commands takes a backslash and the character behind it as one unit, the search for
labels does not.  Both are described by the text that stands before a command or a label.

* `labelPlaces`, `mem_labelPlaces_iff` — a label stands wherever its text does.
* `isLabelCommand_iff_even` — the backslash of a label starts a command exactly if the backslashes
  before it come in pairs.
* `LabelScan`, `labelScan` — which labels are no arguments of a command, and how many they are next
  to the commands without a label.
* `exists_label_without_command` — a label behind a line break.
-/

namespace TexSymbols

variable {t before command label : Text}

/-! ## Labels -/

/-- Every label of a text behind what stands before its backslash. -/
def labelPlaces : Text → List (Text × Text)
  | [] => []
  | c :: r =>
    (argumentAt? ["label"] (c :: r)).toList.map (([], ·)) ++
      (labelPlaces r).map fun p => (c :: p.1, p.2)

/-- The places of labels are those of the arguments of `\label`. -/
theorem labelPlaces_eq (t : Text) :
    labelPlaces t = (argumentPlaces ["label"] t).map fun p => (p.before, p.argument) := by
  induction t with
  | nil => rfl
  | cons c r ih =>
    rw [labelPlaces, argumentPlaces, List.map_append, List.map_map, ih, List.map_map,
      argumentAt?_eq]
    cases hhere : argumentPlaceAt? ["label"] (c :: r) with
    | none => rfl
    | some p =>
      rw [← (standsIn_of_argumentPlaceAt? hhere).2.1]
      rfl

theorem map_snd_labelPlaces (t : Text) : (labelPlaces t).map Prod.snd = labels t := by
  rw [labelPlaces_eq, List.map_map]
  exact map_argument_argumentPlaces ["label"] t

theorem mem_labelPlaces_iff_standsIn :
    (before, label) ∈ labelPlaces t ↔ ArgumentPlace.StandsIn ⟨before, "label", label⟩ t := by
  rw [labelPlaces_eq, List.mem_map]
  constructor
  · rintro ⟨⟨_, name, _⟩, hp, heq⟩
    obtain ⟨rfl, rfl⟩ := Prod.mk.inj heq
    obtain ⟨hname, hstands⟩ := (mem_argumentPlaces_iff (by decide)).1 hp
    obtain rfl := List.mem_singleton.1 hname
    exact hstands
  · intro h
    exact ⟨_, (mem_argumentPlaces_iff (by decide)).2 ⟨List.mem_singleton_self _, h⟩, rfl⟩

/-- **A label stands wherever its text does.** -/
theorem mem_labelPlaces_iff :
    (before, label) ∈ labelPlaces t ↔
      '{' ∉ label ∧ '}' ∉ label ∧
        ∃ after, t = before ++ (labelOpening ++ (label ++ '}' :: after)) :=
  mem_labelPlaces_iff_standsIn

theorem nodup_labelPlaces (t : Text) : ((labelPlaces t).map Prod.fst).Nodup := by
  rw [labelPlaces_eq, List.map_map]
  exact List.pairwise_map.2 <| (pairwise_argumentPlaces _ t).imp fun hlt heq =>
    absurd (congrArg List.length heq) (Nat.ne_of_lt hlt)

/-! ## Labels and their commands -/

/-- The command that a label is the argument of. -/
def labelCommand : Text := "\\label"

/-- **The backslash of a label starts a command exactly if those before it come in pairs.** -/
theorem isLabelCommand_iff_even {p : Text × Text} (hp : p ∈ labelPlaces t) :
    (p.1, labelCommand) ∈ commandPlaces t ↔ Even (endingBackslashes p.1) := by
  have hcommand : IsCommand labelCommand := isCommand_of_all (by decide) (by decide)
  have hstands : ArgumentPlace.StandsIn ⟨p.1, "label", p.2⟩ t := mem_labelPlaces_iff_standsIn.1 hp
  exact isCommand_iff_even (p := ⟨p.1, "label", p.2⟩) hcommand hstands

/-- The labels whose backslash is taken by the one before it. -/
def escapedLabels (t : Text) : List (Text × Text) :=
  (labelPlaces t).filter fun p => ¬ Even (endingBackslashes p.1)

/-- The places of the commands `\label` at which no label stands. -/
def bareLabelCommands (t : Text) : List (Text × Text) :=
  (commandPlaces t).filter fun p => p.2 = labelCommand ∧ p.1 ∉ (labelPlaces t).map Prod.fst

/-- Labels after backslashes in pairs stand where the commands `\label` with a label do. -/
theorem pairedPlaces_perm (t : Text) :
    (((labelPlaces t).filter fun p => Even (endingBackslashes p.1)).map Prod.fst).Perm
      (((commandPlaces t).filter fun p =>
        p.2 = labelCommand ∧ p.1 ∈ (labelPlaces t).map Prod.fst).map Prod.fst) := by
  refine (List.perm_ext_iff_of_nodup ?_ ?_).2 fun before => ?_
  · exact (nodup_labelPlaces t).sublist (List.filter_sublist.map _)
  · exact (nodup_commandPlaces t).sublist (List.filter_sublist.map _)
  · simp only [List.mem_map, List.mem_filter, decide_eq_true_eq]
    constructor
    · rintro ⟨p, ⟨hp, heven⟩, rfl⟩
      exact ⟨(p.1, labelCommand), ⟨(isLabelCommand_iff_even hp).2 heven, rfl, p, hp, rfl⟩, rfl⟩
    · rintro ⟨⟨_, _⟩, ⟨hcommand, rfl, p, hp, rfl⟩, rfl⟩
      exact ⟨p, ⟨hp, (isLabelCommand_iff_even hp).1 hcommand⟩, rfl⟩

theorem length_labels (t : Text) :
    (labels t).length =
      ((labelPlaces t).filter fun p => Even (endingBackslashes p.1)).length +
        (escapedLabels t).length := by
  rw [← map_snd_labelPlaces, List.length_map, escapedLabels, ← List.countP_eq_length_filter,
    ← List.countP_eq_length_filter]
  have hsplit := List.length_eq_countP_add_countP (l := labelPlaces t)
    fun p => decide (Even (endingBackslashes p.1))
  simpa using hsplit

theorem count_labelCommand (t : Text) :
    (commands t).count labelCommand =
      ((commandPlaces t).filter fun p =>
        p.2 = labelCommand ∧ p.1 ∈ (labelPlaces t).map Prod.fst).length +
        (bareLabelCommands t).length := by
  have hsplit := List.countP_eq_countP_filter_add (commandPlaces t)
    (fun p => decide (p.2 = labelCommand)) fun p => decide (p.1 ∈ (labelPlaces t).map Prod.fst)
  rw [List.countP_filter, List.countP_filter] at hsplit
  rw [← map_snd_commandPlaces, List.count, List.countP_map, bareLabelCommands,
    ← List.countP_eq_length_filter, ← List.countP_eq_length_filter]
  simpa [Function.comp_def, beq_eq_decide] using hsplit

/-- **Labels without a command make up for commands without a label.** -/
theorem length_labels_add (t : Text) :
    (labels t).length + (bareLabelCommands t).length =
      (commands t).count labelCommand + (escapedLabels t).length := by
  have hpaired := (pairedPlaces_perm t).length_eq
  rw [List.length_map, List.length_map] at hpaired
  rw [length_labels, count_labelCommand, hpaired]
  omega

/-- Every label is the argument of a command `\label` that the scan for commands finds there. -/
def LabelsAreArguments (t : Text) : Prop :=
  ∀ p ∈ labelPlaces t, (p.1, labelCommand) ∈ commandPlaces t

instance (t : Text) : Decidable (LabelsAreArguments t) :=
  inferInstanceAs (Decidable (∀ p ∈ labelPlaces t, (p.1, labelCommand) ∈ commandPlaces t))

theorem labelsAreArguments_iff (t : Text) : LabelsAreArguments t ↔ escapedLabels t = [] := by
  rw [escapedLabels, List.filter_eq_nil_iff]
  refine forall₂_congr fun p hp => ?_
  rw [isLabelCommand_iff_even hp]
  simp

/-- What the search for labels finds in a text, next to the scan for commands. -/
structure LabelScan (t : Text) : Prop where
  labels_eq : (labelPlaces t).map Prod.snd = labels t
  /-- Labels are the texts without braces in the braces behind `\label`. -/
  mem_labels : ∀ before label, (before, label) ∈ labelPlaces t ↔
    '{' ∉ label ∧ '}' ∉ label ∧ ∃ after, t = before ++ (labelOpening ++ (label ++ '}' :: after))
  commands_eq : (commandPlaces t).map Prod.snd = commands t
  /-- Commands are a backslash and all the letters behind it, after backslashes in pairs. -/
  mem_commands : ∀ before command, (before, command) ∈ commandPlaces t ↔
    CommandBehind before command t
  isCommand_iff : ∀ p ∈ labelPlaces t,
    (p.1, labelCommand) ∈ commandPlaces t ↔ Even (endingBackslashes p.1)
  labelsAreArguments_iff : LabelsAreArguments t ↔ escapedLabels t = []
  length_add : (labels t).length + (bareLabelCommands t).length =
    (commands t).count labelCommand + (escapedLabels t).length
  /-- There are more labels than commands exactly if escaped labels outnumber bare commands. -/
  length_le_iff : (labels t).length ≤ (commands t).count labelCommand ↔
    (escapedLabels t).length ≤ (bareLabelCommands t).length

/-- **Labels are arguments of commands, except those behind an odd number of backslashes.** -/
theorem labelScan (t : Text) : LabelScan t where
  labels_eq := map_snd_labelPlaces t
  mem_labels _ _ := mem_labelPlaces_iff
  commands_eq := map_snd_commandPlaces t
  mem_commands _ _ := mem_commandPlaces_iff
  isCommand_iff _ hp := isLabelCommand_iff_even hp
  labelsAreArguments_iff := labelsAreArguments_iff t
  length_add := length_labels_add t
  length_le_iff := by
    have hadd := length_labels_add t
    omega

/-- A line break and the word `label` behind it. -/
def labelBehindLineBreak : Text := "\\\\label\x7ba\x7d"

/-- **The search finds a label where the scan finds no command.** -/
theorem exists_label_without_command :
    labels labelBehindLineBreak = ["a"] ∧ commands labelBehindLineBreak = [] ∧
      ¬ LabelsAreArguments labelBehindLineBreak ∧
      ¬ (labels labelBehindLineBreak).length ≤
        (commands labelBehindLineBreak).count labelCommand := by
  decide

end TexSymbols

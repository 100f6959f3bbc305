import TexSymbols.Proofs.OrderedMap
import TexSymbols.Proofs.Text.Distinct
import TexSymbols.Proofs.Usage.Appearance

/-!
# Which uses of a command are recorded

* `upToFirst` — a list up to and including its first element with a property.
* `UseScan.Scanned` — what the state of going through a document has from the appearances so far;
  `Scanned.command`, `Scanned.line` — one more command and one more line keep it.
* `recorded` — the appearances of a command up to the first one with a label.
* `UsesRecorded`, `usesRecorded` — the uses in a document are these appearances.
-/

namespace TexSymbols

/-! ## Up to the first -/

/-- The list up to and including its first element with `p`, all of it if there is none. -/
def upToFirst {α : Type} (p : α → Bool) : List α → List α
  | [] => []
  | a :: r => if p a then [a] else a :: upToFirst p r

section upToFirst

variable {α : Type} {p : α → Bool} {l : List α}

/-- Behind the first element with `p` nothing is added. -/
theorem upToFirst_append_singleton (l : List α) (a : α) :
    upToFirst p (l ++ [a]) = if l.any p then upToFirst p l else upToFirst p l ++ [a] := by
  induction l with
  | nil => simp [upToFirst]
  | cons b l ih =>
    by_cases hb : p b
    · simp [upToFirst, hb]
    · by_cases hl : l.any p <;> simp [upToFirst, hb, ih, hl]

theorem isPrefix_upToFirst (l : List α) : upToFirst p l <+: l := by
  induction l with
  | nil => exact List.nil_prefix
  | cons b l ih =>
    rw [upToFirst]
    split
    · exact (List.prefix_cons_inj b).2 List.nil_prefix
    · exact (List.prefix_cons_inj b).2 ih

/-- Only the last element can have `p`. -/
theorem eq_nil_of_upToFirst_eq {before after : List α} {a : α}
    (h : upToFirst p l = before ++ a :: after) (ha : p a = true) : after = [] := by
  induction l generalizing before with
  | nil => simp [upToFirst] at h
  | cons b l ih =>
    rw [upToFirst] at h
    cases before with
    | nil =>
      split at h
      · exact (List.cons.inj h).2.symm
      · rename_i hb
        obtain ⟨rfl, -⟩ := List.cons.inj h
        exact absurd ha hb
    | cons c before =>
      split at h
      · have hnil := (List.cons.inj h).2
        simp at hnil
      · exact ih (List.cons.inj h).2

end upToFirst

/-! ## Going through a document -/

namespace UseScan

variable {file : Text} {mark : Nat → Option Text} {seen : List Appearance} {s : UseScan}

/-- The uses of a command among the appearances seen: up to the first one with a label. -/
def usesOf (file : Text) (mark : Nat → Option Text) (seen : List Appearance) (command : Text) :
    List Use :=
  (upToFirst (fun a => (mark a.line).isSome) (seen.filter (·.command = command))).map
    (Appearance.use file mark)

/-- What the state has from the appearances that were seen. -/
structure Scanned (file : Text) (mark : Nat → Option Text) (seen : List Appearance)
    (s : UseScan) : Prop where
  keys_eq : s.uses.keys = Text.distinct (seen.map Appearance.command)
  uses_eq : ∀ command, (s.uses.find? command).getD [] = usesOf file mark seen command
  /-- Closed are the commands that were seen with a label. -/
  mem_closed_iff : ∀ command, command ∈ s.closed ↔
    ∃ a ∈ seen, a.command = command ∧ (mark a.line).isSome

theorem usesOf_append_of_ne {a : Appearance} {command : Text} (h : command ≠ a.command) :
    usesOf file mark (seen ++ [a]) command = usesOf file mark seen command := by
  rw [usesOf, List.filter_append, List.filter_cons_of_neg (by simpa using Ne.symm h),
    List.filter_nil, List.append_nil, usesOf]

theorem usesOf_append_self (a : Appearance) :
    usesOf file mark (seen ++ [a]) a.command =
      if ∃ b ∈ seen, b.command = a.command ∧ (mark b.line).isSome then
        usesOf file mark seen a.command
      else usesOf file mark seen a.command ++ [a.use file mark] := by
  have hfilter : (seen ++ [a]).filter (·.command = a.command) =
      seen.filter (·.command = a.command) ++ [a] := by
    rw [List.filter_append, List.filter_cons_of_pos (by simp), List.filter_nil]
  have hany : (seen.filter (·.command = a.command)).any (fun b => (mark b.line).isSome) = true ↔
      ∃ b ∈ seen, b.command = a.command ∧ (mark b.line).isSome := by
    simp [List.any_eq_true]
  rw [usesOf, hfilter, upToFirst_append_singleton, usesOf]
  by_cases h : ∃ b ∈ seen, b.command = a.command ∧ (mark b.line).isSome
  · rw [if_pos (hany.2 h), if_pos h]
  · rw [if_neg (mt hany.1 h), if_neg h, List.map_append, List.map_singleton]

/-- One more appearance. -/
theorem Scanned.command (h : Scanned file mark seen s) {a : Appearance}
    (hlabel : s.label = mark a.line) :
    Scanned file mark (seen ++ [a]) (s.command file a.line a.command) := by
  have hclosed := h.mem_closed_iff a.command
  refine ⟨?_, ?_, ?_⟩
  · rw [List.map_append, List.map_singleton]
    by_cases hmem : a.command ∈ Text.distinct (seen.map Appearance.command)
    · rw [Text.distinct_concat_of_mem hmem, ← h.keys_eq]
      rw [← h.keys_eq] at hmem
      show (if a.command ∈ s.closed then s.uses else _).keys = s.uses.keys
      split
      · rfl
      · rw [UsageMap.record, OrderedMap.keys_insert, if_pos hmem]
    · rw [Text.distinct_concat_of_notMem hmem, ← h.keys_eq]
      rw [← h.keys_eq] at hmem
      -- a closed command was seen before
      have hopen : a.command ∉ s.closed := by
        intro hc
        obtain ⟨b, hb, hcommand, -⟩ := hclosed.1 hc
        refine hmem ?_
        rw [h.keys_eq, Text.mem_distinct]
        exact hcommand ▸ List.mem_map_of_mem hb
      show (if a.command ∈ s.closed then s.uses else _).keys = s.uses.keys ++ [a.command]
      rw [if_neg hopen, UsageMap.record, OrderedMap.keys_insert, if_neg hmem]
  · intro command
    show ((if a.command ∈ s.closed then s.uses else _).find? command).getD [] = _
    by_cases hcommand : command = a.command
    · subst hcommand
      rw [usesOf_append_self, ← h.uses_eq]
      by_cases hc : a.command ∈ s.closed
      · rw [if_pos hc, if_pos (hclosed.1 hc)]
      · rw [if_neg hc, if_neg (mt hclosed.2 hc), UsageMap.record, OrderedMap.find?_insert,
          if_pos rfl, Option.getD_some, hlabel]
        rfl
    · rw [usesOf_append_of_ne hcommand, ← h.uses_eq]
      split
      · rfl
      · rw [UsageMap.record, OrderedMap.find?_insert, if_neg hcommand]
  · intro command
    show command ∈ (if s.label.isSome then a.command :: s.closed else s.closed) ↔ _
    have hsplit : (∃ b ∈ seen ++ [a], b.command = command ∧ (mark b.line).isSome) ↔
        (∃ b ∈ seen, b.command = command ∧ (mark b.line).isSome) ∨
          (a.command = command ∧ (mark a.line).isSome) := by
      simp only [List.mem_append, List.mem_singleton, or_and_right, exists_or, exists_eq_left]
    rw [hsplit, ← h.mem_closed_iff, hlabel]
    by_cases hmark : (mark a.line).isSome
    · rw [if_pos hmark, List.mem_cons]
      simp [hmark, or_comm, eq_comm]
    · rw [if_neg hmark]
      simp [hmark]

/-- All appearances of a line. -/
theorem Scanned.commands {as : List Appearance} {n : Nat} (h : Scanned file mark seen s)
    (hline : ∀ a ∈ as, a.line = n) (hlabel : s.label = mark n) :
    Scanned file mark (seen ++ as)
        ((as.map Appearance.command).foldl (UseScan.command file n) s) ∧
      ((as.map Appearance.command).foldl (UseScan.command file n) s).label = mark n := by
  induction as generalizing seen s with
  | nil => exact ⟨by rwa [List.append_nil], hlabel⟩
  | cons a as ih =>
    rw [List.forall_mem_cons] at hline
    obtain ⟨rfl, hline⟩ := hline
    have hstep := h.command (a := a) hlabel
    rw [List.append_cons]
    exact ih hstep hline hlabel

/-- One more line. -/
theorem Scanned.line {text : Text} {n : Nat} (h : Scanned file mark seen s)
    (hlabel : (labels (stripComment text)).getLast?.or s.label = mark n) :
    Scanned file mark (seen ++ appearancesOn n (stripComment text)) (s.line file (text, n)) ∧
      (s.line file (text, n)).label = mark n := by
  have hstart : Scanned file mark seen { s with label := mark n } :=
    ⟨h.keys_eq, h.uses_eq, h.mem_closed_iff⟩
  have hcommands := hstart.commands
    (fun a (ha : a ∈ appearancesOn n (stripComment text)) => line_of_mem_appearancesOn ha) rfl
  rw [map_command_appearancesOn] at hcommands
  have hstep : s.line file (text, n) =
      (TexSymbols.commands (stripComment text)).foldl (UseScan.command file n)
        { s with label := mark n } := by
    rw [UseScan.line, hlabel]
  rw [hstep]
  exact hcommands

/-- All lines of a document, of which some have been read. -/
theorem Scanned.lines (done rest : List Text)
    (h : Scanned file (labelUpTo ((done ++ rest).map stripComment))
      (appearancesFrom 0 (done.map stripComment)) s)
    (hlabel : s.label = labelUpTo ((done ++ rest).map stripComment) done.length) :
    Scanned file (labelUpTo ((done ++ rest).map stripComment))
      (appearancesFrom 0 ((done ++ rest).map stripComment))
      ((rest.zipIdx (done.length + 1)).foldl (UseScan.line file) s) := by
  induction rest generalizing done s with
  | nil => simpa using h
  | cons line rest ih =>
    have hlast : (labels (stripComment line)).getLast?.or s.label =
        labelUpTo ((done ++ line :: rest).map stripComment) (done.length + 1) := by
      have hnext := labelUpTo_append (done.map stripComment) (rest.map stripComment)
        (stripComment line)
      rw [List.length_map] at hnext
      rw [hlabel, List.map_append, List.map_cons, hnext]
    obtain ⟨hline, hlabel'⟩ := h.line hlast
    rw [List.zipIdx_cons, List.foldl_cons]
    have hseen : appearancesFrom 0 (done.map stripComment) ++
        appearancesOn (done.length + 1) (stripComment line) =
          appearancesFrom 0 ((done ++ [line]).map stripComment) := by
      rw [List.map_append, List.map_singleton, appearancesFrom_append, appearancesFrom_singleton,
        List.length_map, Nat.zero_add]
    rw [hseen] at hline
    have hsplit : done ++ line :: rest = (done ++ [line]) ++ rest := List.append_cons ..
    rw [hsplit] at hline hlabel' ⊢
    have hrest := ih (done ++ [line]) hline (by simpa using hlabel')
    simpa using hrest

end UseScan

/-! ## The uses of a document -/

theorem scanned_usesIn (file text : Text) :
    ∃ s, s.uses = usesIn file text ∧
      UseScan.Scanned file (labelUpTo (strippedLines text)) (appearances text) s := by
  have hstart : UseScan.Scanned file (labelUpTo (strippedLines text)) [] ⟨.empty, [], none⟩ :=
    ⟨rfl, fun _ => rfl, fun _ => by simp⟩
  refine ⟨_, rfl, UseScan.Scanned.lines [] _ hstart ?_⟩
  simp [labelUpTo]

/-- Whether line `n` has a label or stands below a line that has one. -/
def isLabelled (lines : List Text) (n : Nat) : Bool := (firstLabelLine? lines).any (· ≤ n)

/-- The appearances of a command that are recorded: up to the first one on a line that has a label
or stands below one. -/
def recorded (text command : Text) : List Appearance :=
  upToFirst (fun a => isLabelled (strippedLines text) a.line)
    ((appearances text).filter (·.command = command))

theorem usesOf_eq (file text command : Text) :
    UseScan.usesOf file (labelUpTo (strippedLines text)) (appearances text) command =
      (recorded text command).map (Appearance.use file (labelUpTo (strippedLines text))) := by
  have hmark : (fun a : Appearance => (labelUpTo (strippedLines text) a.line).isSome) =
      fun a => isLabelled (strippedLines text) a.line :=
    funext fun a => isSome_labelUpTo _ _
  rw [UseScan.usesOf, hmark]
  rfl

/-- The uses of each command in a document are its appearances up to the first one with a label. -/
structure UsesRecorded (file text : Text) (m : UsageMap) : Prop where
  /-- The appearances are those of the commands of each line, in order. -/
  appearances_eq : (appearances text).map (fun a => (a.command, a.line)) =
    ((strippedLines text).zipIdx 1).flatMap fun l => (commands l.1).map (·, l.2)
  /-- The keys are the commands of all lines, in order of first appearance. -/
  keys_eq : m.keys = Text.distinct ((strippedLines text).flatMap commands)
  /-- Each has the last label on the lines up to its own. -/
  find?_eq : ∀ command ∈ m.keys,
    m.find? command =
      some ((recorded text command).map (Appearance.use file (labelUpTo (strippedLines text))))
  /-- Only the last use of a command can have a label. -/
  labelled_last : ∀ command uses before u after, m.find? command = some uses →
    uses = before ++ u :: after → u.label.isSome → after = []
  firstLabelled_eq : ∀ command uses, m.find? command = some uses →
    firstLabelled uses = uses.getLast?.bind Use.label

theorem map_appearances (text : Text) :
    (appearances text).map (fun a => (a.command, a.line)) =
      ((strippedLines text).zipIdx 1).flatMap fun l => (commands l.1).map (·, l.2) := by
  rw [appearances, appearancesFrom, List.map_flatMap]
  refine List.flatMap_congr fun l _ => ?_
  rw [← map_command_appearancesOn l.2 l.1, List.map_map]
  refine List.map_congr_left fun a ha => ?_
  rw [line_of_mem_appearancesOn ha]
  rfl

theorem map_command_appearances (text : Text) :
    (appearances text).map Appearance.command = (strippedLines text).flatMap commands := by
  have hpairs := congrArg (List.map Prod.fst) (map_appearances text)
  rw [List.map_map, List.map_flatMap] at hpairs
  refine hpairs.trans ?_
  have hlines : (strippedLines text).flatMap commands =
      (((strippedLines text).zipIdx 1).map Prod.fst).flatMap commands := by
    rw [List.zipIdx_map_fst]
  rw [hlines, List.flatMap_map]
  exact List.flatMap_congr fun l _ => by simp [Function.comp_def]

/-- If a label can only stand at the end, the first one does. -/
theorem firstLabelled_eq_of_last {uses : List Use}
    (h : ∀ before u after, uses = before ++ u :: after → u.label.isSome → after = []) :
    firstLabelled uses = uses.getLast?.bind Use.label := by
  induction uses with
  | nil => rfl
  | cons u uses ih =>
    cases hlabel : u.label with
    | none =>
      have hrest := ih fun before v after heq =>
        h (u :: before) v after (by rw [heq, List.cons_append])
      rw [firstLabelled] at hrest ⊢
      rw [List.findSome?_cons_of_isNone (by rw [hlabel]; rfl), hrest]
      cases uses with
      | nil => simp [hlabel]
      | cons v uses => rw [List.getLast?_cons_cons]
    | some label =>
      have hnil : uses = [] := h [] u uses rfl (by rw [hlabel]; rfl)
      simp [firstLabelled, hnil, hlabel]

theorem find?_usesIn {file text command : Text} (h : command ∈ (usesIn file text).keys) :
    (usesIn file text).find? command =
      some ((recorded text command).map (Appearance.use file (labelUpTo (strippedLines text)))) := by
  obtain ⟨s, hs, hscanned⟩ := scanned_usesIn file text
  obtain ⟨uses, huses⟩ := Option.isSome_iff_exists.1 (OrderedMap.find?_isSome_iff.2 h)
  have hvalue := hscanned.uses_eq command
  rw [hs, huses, Option.getD_some, usesOf_eq] at hvalue
  rw [huses, hvalue]

theorem keys_usesIn (file text : Text) :
    (usesIn file text).keys = Text.distinct ((strippedLines text).flatMap commands) := by
  obtain ⟨s, hs, hscanned⟩ := scanned_usesIn file text
  rw [← hs, hscanned.keys_eq, map_command_appearances]

/-- **The uses in a document are recorded up to the first one with a label.** -/
theorem usesRecorded (file text : Text) : UsesRecorded file text (usesIn file text) := by
  have hlast : ∀ command uses before u after, (usesIn file text).find? command = some uses →
      uses = before ++ u :: after → u.label.isSome → after = [] := by
    intro command uses before u after huses hsplit hlabel
    have hkey : command ∈ (usesIn file text).keys :=
      OrderedMap.find?_isSome_iff.1 (by rw [huses]; rfl)
    obtain rfl := Option.some.inj (huses.symm.trans (find?_usesIn hkey))
    obtain ⟨before', rest, hrecorded, -, hrest⟩ := List.map_eq_append_iff.1 hsplit
    obtain ⟨a, after', rfl, rfl, rfl⟩ := List.map_eq_cons_iff.1 hrest
    have ha : isLabelled (strippedLines text) a.line = true :=
      (isSome_labelUpTo _ _).symm.trans hlabel
    rw [eq_nil_of_upToFirst_eq hrecorded ha, List.map_nil]
  refine ⟨map_appearances text, keys_usesIn file text, fun _ => find?_usesIn, hlast, ?_⟩
  intro command uses huses
  exact firstLabelled_eq_of_last fun before u after => hlast command uses before u after huses

end TexSymbols

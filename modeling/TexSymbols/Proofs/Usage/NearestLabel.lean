import TexSymbols.Proofs.Tex.Argument
import TexSymbols.Proofs.Usage.Recorded

/-!
# Labels before and behind a use

* `nearestLabel` — the label that precedes an appearance most closely; `labelsBehind` — the labels
  of its line that are not complete before it.
* `labelUpTo_line` — a use has the last label behind it on its line, and the nearest preceding one
  only if there is none behind it.
* `RecordsNearest` — all uses have their nearest preceding label.
* `LabelPlacement`, `labelPlacement` — which labels uses have, and when these are the nearest
  preceding ones; `not_recordsNearest` — a document in which they are not.
-/

namespace TexSymbols

variable {lines : List Text} {a : Appearance}

/-- The label that precedes an appearance most closely: the last one that is complete before it, on
a line above or on its own. -/
def nearestLabel (lines : List Text) (a : Appearance) : Option Text :=
  ((lines.take (a.line - 1)).flatMap labels ++ labels a.before).getLast?

/-- The line of an appearance. -/
def lineOf (lines : List Text) (a : Appearance) : Text := (lines[a.line - 1]?).getD []

/-- The labels on the line of an appearance that are not complete before it. -/
def labelsBehind (lines : List Text) (a : Appearance) : List Text :=
  (labels (lineOf lines a)).drop (labels a.before).length

/-- An appearance stands on its line behind the text before it. -/
theorem stands_on_line (h : a ∈ appearancesFrom 0 lines) :
    lines[a.line - 1]? = some (lineOf lines a) ∧ a.before ++ a.command <+: lineOf lines a ∧
      a.line = a.line - 1 + 1 := by
  obtain ⟨i, line, hline, hget, ha⟩ := exists_line_of_mem_appearancesFrom h
  obtain rfl : i = a.line - 1 := by omega
  have hlineOf : lineOf lines a = line := by rw [lineOf, hget, Option.getD_some]
  obtain ⟨p, hp, heq⟩ := List.mem_map.1 ha
  have hbefore : p.1 = a.before := congrArg Appearance.before heq
  have hcommand : p.2 = a.command := congrArg Appearance.command heq
  rw [hlineOf, ← hbefore, ← hcommand]
  exact ⟨hget, prefix_of_mem_commandPlaces hp, by omega⟩

/-- The labels of a line are those before an appearance and those behind it. -/
theorem labels_lineOf (h : a ∈ appearancesFrom 0 lines) :
    labels (lineOf lines a) = labels a.before ++ labelsBehind lines a := by
  obtain ⟨-, ⟨rest, hrest⟩, -⟩ := stands_on_line h
  have hprefix : labels a.before <+: labels (lineOf lines a) := by
    rw [← hrest, List.append_assoc]
    exact labels_prefix_append _ _
  exact (List.prefix_iff_eq_append.1 hprefix).symm

/-- **The last label up to the line of an appearance**: the last one behind it on the line, or else
the nearest preceding one. -/
theorem labelUpTo_line (h : a ∈ appearancesFrom 0 lines) :
    labelUpTo lines a.line = (labelsBehind lines a).getLast?.or (nearestLabel lines a) := by
  obtain ⟨hget, -, hline⟩ := stands_on_line h
  have htake : lines.take a.line = lines.take (a.line - 1) ++ [lineOf lines a] := by
    conv_lhs => rw [hline]
    rw [List.take_add_one, hget, Option.toList_some]
  rw [labelUpTo, htake, List.flatMap_append, List.flatMap_singleton, labels_lineOf h,
    ← List.append_assoc, List.getLast?_append, nearestLabel]

theorem mem_appearances_of_mem_recorded {text command : Text} (h : a ∈ recorded text command) :
    a ∈ appearances text ∧ a.command = command := by
  have hmem : a ∈ (appearances text).filter (·.command = command) := (isPrefix_upToFirst _).subset h
  simpa using List.mem_filter.1 hmem

/-- Every use has the label that precedes it most closely. -/
def RecordsNearest (file text : Text) (m : UsageMap) : Prop :=
  ∀ command ∈ m.keys, m.find? command = some ((recorded text command).map fun a =>
    ⟨file, a.line, nearestLabel (strippedLines text) a⟩)

/-- Which labels the uses of a document have. -/
structure LabelPlacement (file text : Text) (m : UsageMap) : Prop where
  /-- A use has the last label behind it on its line, and otherwise the nearest preceding one. -/
  find?_eq : ∀ command ∈ m.keys, m.find? command = some ((recorded text command).map fun a =>
    ⟨file, a.line, (labelsBehind (strippedLines text) a).getLast?.or
      (nearestLabel (strippedLines text) a)⟩)
  /-- The two make up the labels of the line. -/
  labels_eq : ∀ a ∈ appearances text,
    (strippedLines text)[a.line - 1]? = some (lineOf (strippedLines text) a) ∧
      a.before ++ a.command <+: lineOf (strippedLines text) a ∧
      labels (lineOf (strippedLines text) a) =
        labels a.before ++ labelsBehind (strippedLines text) a
  /-- The label is the nearest preceding one exactly if the last one behind the use, if there is
  one, is the same. -/
  recordsNearest_iff : RecordsNearest file text m ↔
    ∀ command ∈ m.keys, ∀ a ∈ recorded text command,
      ∀ label ∈ (labelsBehind (strippedLines text) a).getLast?,
        nearestLabel (strippedLines text) a = some label

/-- **A use has the last label of its line, even if that stands behind it**, and only in a line
without one behind it the nearest preceding label. -/
theorem labelPlacement (file text : Text) : LabelPlacement file text (usesIn file text) := by
  have hfind : ∀ command ∈ (usesIn file text).keys, (usesIn file text).find? command =
      some ((recorded text command).map fun a =>
        ⟨file, a.line, (labelsBehind (strippedLines text) a).getLast?.or
          (nearestLabel (strippedLines text) a)⟩) := by
    intro command hcommand
    rw [find?_usesIn hcommand]
    refine congrArg some (List.map_congr_left fun a ha => ?_)
    rw [Appearance.use, labelUpTo_line (mem_appearances_of_mem_recorded ha).1]
  refine ⟨hfind, fun a ha => ?_, ?_⟩
  · obtain ⟨hget, hprefix, -⟩ := stands_on_line ha
    exact ⟨hget, hprefix, labels_lineOf ha⟩
  · refine forall₂_congr fun command hcommand => ?_
    rw [hfind command hcommand, Option.some.injEq, List.map_inj_left]
    refine forall₂_congr fun a ha => ?_
    cases (labelsBehind (strippedLines text) a).getLast? with
    | none => simp
    | some label => simp [eq_comm]

/-- A label behind a command on its line. -/
def lateLabel : Text := "\\x \\label\x7ba\x7d"

/-- The label is recorded for the command, although it does not precede it. -/
theorem not_recordsNearest :
    ¬ ∀ file text, RecordsNearest file text (usesIn file text) := by
  intro h
  have hx := h "d.tex" lateLabel "\\x" (by decide)
  exact absurd hx (by decide)

end TexSymbols

import TexSymbols.Dependencies.Resolver
import TexSymbols.Proofs.Tex.ArgumentPlace
import TexSymbols.Proofs.Tex.Comment
import TexSymbols.Proofs.Text.Distinct

/-!
# Which commands name the files of a TeX document

The search for included files takes the text of `\input` and `\include` wherever it stands, the scan
for commands takes a backslash and the character behind it as one unit.

* `Inclusion`, `inclusions` — the places on the lines of a document where a file is included;
  `mem_inclusions_iff` — comments apart, they are those where the text of the command stands.
* `namesIn_tex` — the files that a document names are those of its inclusions.
* `Inclusion.startsCommand_iff` — a command starts at an inclusion exactly if the backslashes before
  it come in pairs.
* `AllNamedBy`, `InclusionSearch`, `inclusionSearch` — when every file is named by a command.
* `exists_named_without_command` — an inclusion behind a line break.
-/

namespace TexSymbols

variable {path : Path} {content : Bytes} {i : Inclusion} {P Q : Inclusion → Prop}

/-- A place on a line of a document where a file is included. -/
structure Inclusion extends ArgumentPlace where
  /-- The line, with its comment. -/
  line : Text

/-- The names of the commands that include a file. -/
def inclusionNames : List Text := ["input", "include"]

/-- The inclusions of a document, line by line. -/
def inclusions (content : Bytes) : List Inclusion :=
  (Text.lines (Utf8.decodeLossy content)).flatMap fun line =>
    (argumentPlaces inclusionNames (stripComment line)).map (⟨·, line⟩)

namespace Inclusion

/-- The file that is included. -/
def file (i : Inclusion) : Path := Path.withTexExtension (Text.trim i.argument)

/-- The scan for commands finds the command there. -/
def StartsCommand (i : Inclusion) : Prop := (i.before, i.command) ∈ commandPlaces (stripComment i.line)

instance : DecidablePred StartsCommand := fun i =>
  inferInstanceAs (Decidable ((i.before, i.command) ∈ commandPlaces (stripComment i.line)))

/-- The argument in its braces is a group. -/
def IsGrouped (i : Inclusion) : Prop := i.HasGroup (stripComment i.line)

end Inclusion

/-- Inclusions are the places where the text of one of the commands stands with its argument. -/
theorem mem_inclusions_iff :
    i ∈ inclusions content ↔ i.line ∈ Text.lines (Utf8.decodeLossy content) ∧
      i.name ∈ inclusionNames ∧ i.StandsIn (stripComment i.line) := by
  have hnames : ∀ name ∈ inclusionNames, '{' ∉ name := by decide
  unfold inclusions
  simp only [List.mem_flatMap, List.mem_map, mem_argumentPlaces_iff hnames]
  constructor
  · rintro ⟨line, hline, place, ⟨hname, hstands⟩, rfl⟩
    exact ⟨hline, hname, hstands⟩
  · rintro ⟨hline, hname, hstands⟩
    exact ⟨i.line, hline, i.toArgumentPlace, ⟨hname, hstands⟩, rfl⟩

/-- **The files that a document names are those of its inclusions**, each once. -/
theorem namesIn_tex (path : Path) (content : Bytes) :
    DocumentKind.tex.namesIn path content = Text.distinct ((inclusions content).map Inclusion.file) := by
  unfold DocumentKind.namesIn inclusions
  rw [List.map_flatMap]
  refine congrArg Text.distinct (List.flatMap_congr fun line _ => ?_)
  rw [DocumentKind.namesInLine, inclusionNames, ← map_argument_argumentPlaces, List.map_map,
    List.map_map]
  rfl

theorem mem_namesIn_tex {file : Path} :
    file ∈ DocumentKind.tex.namesIn path content ↔ ∃ i ∈ inclusions content, i.file = file := by
  rw [namesIn_tex, Text.mem_distinct, List.mem_map]

/-! ## Inclusions and commands -/

theorem isCommand_of_mem_inclusionNames :
    ∀ name ∈ inclusionNames, IsCommand ('\\' :: name) := by
  intro name hname
  have hletters : ∀ name ∈ inclusionNames, name ≠ [] ∧ name.all isLetter = true := by decide
  exact isCommand_of_all (hletters name hname).1 (hletters name hname).2

namespace Inclusion

/-- **A command starts at an inclusion exactly if the backslashes before it come in pairs.** -/
theorem startsCommand_iff (hi : i ∈ inclusions content) :
    i.StartsCommand ↔ Even (endingBackslashes i.before) := by
  obtain ⟨-, hname, hstands⟩ := mem_inclusions_iff.1 hi
  exact isCommand_iff_even (isCommand_of_mem_inclusionNames _ hname) hstands

/-- The comment of the line does not matter. -/
theorem startsCommand_iff_line (hi : i ∈ inclusions content) :
    i.StartsCommand ↔ (i.before, i.command) ∈ commandPlaces i.line := by
  obtain ⟨-, -, -, -, after, hsplit⟩ := mem_inclusions_iff.1 hi
  have hlength := congrArg List.length hsplit
  simp only [List.length_append, List.length_cons] at hlength
  rw [StartsCommand, mem_commandPlaces_stripComment]
  exact and_iff_left (by simp only; omega)

theorem isGrouped_iff (hi : i ∈ inclusions content) :
    i.IsGrouped ↔ Even (endingBackslashes i.argument) :=
  isGroup_iff_even (mem_inclusions_iff.1 hi).2.2

end Inclusion

/-- Every file that the document names has an inclusion with `P`. -/
def AllNamedBy (P : Inclusion → Prop) (path : Path) (content : Bytes) : Prop :=
  ∀ file ∈ DocumentKind.tex.namesIn path content, ∃ i ∈ inclusions content, i.file = file ∧ P i

instance [DecidablePred P] : Decidable (AllNamedBy P path content) :=
  inferInstanceAs (Decidable (∀ file ∈ DocumentKind.tex.namesIn path content,
    ∃ i ∈ inclusions content, i.file = file ∧ P i))

/-- Inclusions without the property have to be repeated by some with it. -/
theorem allNamedBy_iff (hPQ : ∀ i ∈ inclusions content, P i ↔ Q i) :
    AllNamedBy P path content ↔ ∀ i ∈ inclusions content, ¬ Q i →
      ∃ j ∈ inclusions content, j.file = i.file ∧ Q j := by
  constructor
  · intro h i hi _
    obtain ⟨j, hj, hfile, hP⟩ := h i.file (mem_namesIn_tex.2 ⟨i, hi, rfl⟩)
    exact ⟨j, hj, hfile, (hPQ j hj).1 hP⟩
  · intro h file hfile
    obtain ⟨i, hi, rfl⟩ := mem_namesIn_tex.1 hfile
    by_cases hQ : Q i
    · exact ⟨i, hi, rfl, (hPQ i hi).2 hQ⟩
    · obtain ⟨j, hj, hfile, hQ⟩ := h i hi hQ
      exact ⟨j, hj, hfile, (hPQ j hj).2 hQ⟩

/-- What the search for included files finds, next to the scan for commands. -/
structure InclusionSearch (path : Path) (content : Bytes) : Prop where
  /-- The files that are named in the content are those that are found for the document. -/
  direct : ∀ t : FileTree, t.read? path = some content →
    t.namedBy .tex path = .ok (DocumentKind.tex.namesIn path content)
  names_eq : DocumentKind.tex.namesIn path content =
    Text.distinct ((inclusions content).map Inclusion.file)
  /-- Inclusions are the places on the lines, without their comments, where `\input` or `\include`
  is written and an argument in braces follows, whatever stands before the backslash. -/
  mem_inclusions : ∀ i, i ∈ inclusions content ↔
    i.line ∈ Text.lines (Utf8.decodeLossy content) ∧ i.name ∈ inclusionNames ∧
      i.StandsIn (stripComment i.line)
  startsCommand_iff : ∀ i ∈ inclusions content,
    (i.StartsCommand ↔ Even (endingBackslashes i.before)) ∧
      (i.StartsCommand ↔ (i.before, i.command) ∈ commandPlaces i.line)
  isGrouped_iff : ∀ i ∈ inclusions content,
    i.IsGrouped ↔ Even (endingBackslashes i.argument)
  /-- Every file is named by a command unless an inclusion that starts none is the only one. -/
  byCommands_iff : AllNamedBy Inclusion.StartsCommand path content ↔
    ∀ i ∈ inclusions content, ¬ Even (endingBackslashes i.before) →
      ∃ j ∈ inclusions content, j.file = i.file ∧ Even (endingBackslashes j.before)
  /-- The same for commands with a group. -/
  byGroups_iff : AllNamedBy (fun i => i.StartsCommand ∧ i.IsGrouped) path content ↔
    ∀ i ∈ inclusions content,
      ¬ (Even (endingBackslashes i.before) ∧ Even (endingBackslashes i.argument)) →
        ∃ j ∈ inclusions content, j.file = i.file ∧
          Even (endingBackslashes j.before) ∧ Even (endingBackslashes j.argument)

/-- **The files of a document are named by commands, except by those behind an odd number of
backslashes.** -/
theorem inclusionSearch (path : Path) (content : Bytes) : InclusionSearch path content where
  direct t ht := by rw [FileTree.namedBy, ht]
  names_eq := namesIn_tex path content
  mem_inclusions _ := mem_inclusions_iff
  startsCommand_iff _ hi :=
    ⟨Inclusion.startsCommand_iff hi, Inclusion.startsCommand_iff_line hi⟩
  isGrouped_iff _ hi := Inclusion.isGrouped_iff hi
  byCommands_iff := allNamedBy_iff fun _ hi => Inclusion.startsCommand_iff hi
  byGroups_iff := allNamedBy_iff fun _ hi =>
    and_congr (Inclusion.startsCommand_iff hi) (Inclusion.isGrouped_iff hi)

/-- A line break and the word `input` behind it. -/
def inputBehindLineBreak : Bytes := Utf8.encode "\\\\input\x7bx\x7d\n"

def lineBreakTree : FileTree := (FileTree.empty "/w").addFile ["d.tex"] inputBehindLineBreak

/-- **A file is found for a document in which the scan finds no command.** -/
theorem exists_named_without_command :
    lineBreakTree.namedBy .tex "d.tex" = .ok ["x.tex"] ∧
      (∀ line ∈ Text.lines (Utf8.decodeLossy inputBehindLineBreak), commands line = []) ∧
      ¬ AllNamedBy Inclusion.StartsCommand "d.tex" inputBehindLineBreak := by
  decide +kernel

end TexSymbols

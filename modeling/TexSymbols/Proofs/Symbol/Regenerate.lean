import TexSymbols.Proofs.Tex.Definition
import TexSymbols.Proofs.Text.Lines
import TexSymbols.Proofs.Token.Stream
import TexSymbols.Symbol

/-!
# Reading regenerated definitions

* `Symbol.read_parameters` — a definition that is written as `parameters` is read as it was written.
* `Symbol.plainLines_guarded`, `Symbol.plainLines_join` — the lines of the definitions of one name,
  and of several.
* `Symbol.Regenerated`, `Symbol.stream_regenerate` — what is regenerated from a symbol is read as
  two definitions of each of its names.
-/

namespace TexSymbols

open Definition

/-! ## Definition lines -/

namespace Symbol

/-- The number of arguments in brackets, unless it is zero. -/
def arity (nargs : Nat) : Text := if nargs = 0 then [] else '[' :: (Decimal.digits nargs ++ [']'])

theorem parameters_eq (name : Text) (nargs : Nat) (body : Text) :
    parameters name nargs body =
      '{' :: (name ++ '}' :: (arity nargs ++ '{' :: (body ++ ['}']))) := by
  unfold parameters arity
  split <;> simp

end Symbol

theorem takeWhile_digits (nargs : Nat) (r : Text) :
    (Decimal.digits nargs ++ ']' :: r).takeWhile Char.isDigit = Decimal.digits nargs := by
  rw [List.takeWhile_append_of_pos (Decimal.isDigit_of_mem_digits nargs),
    List.takeWhile_cons_of_neg (by decide),
    List.append_nil]

theorem dropWhile_digits (nargs : Nat) (r : Text) :
    (Decimal.digits nargs ++ ']' :: r).dropWhile Char.isDigit = ']' :: r := by
  rw [List.dropWhile_append_of_pos (Decimal.isDigit_of_mem_digits nargs),
    List.dropWhile_cons_of_neg (by decide)]

theorem bracketedDigits?_digits (nargs : Nat) (r : Text) :
    bracketedDigits? ('[' :: (Decimal.digits nargs ++ ']' :: r)) =
      some (Decimal.digits nargs, r) := by
  rw [bracketedDigits?, takeWhile_digits, dropWhile_digits]
  cases h : Decimal.digits nargs with
  | nil => exact absurd h (Decimal.digits_ne_nil nargs)
  | cons d ds => rfl

/-- The number of arguments is read as it was written. -/
theorem bracketedDigits?_arity (nargs : Nat) (t : Text) :
    bracketedDigits? (skipBlanks (Symbol.arity nargs ++ '{' :: t)) =
      if nargs = 0 then none else some (Decimal.digits nargs, '{' :: t) := by
  unfold Symbol.arity
  split
  · rfl
  · rw [List.cons_append, List.append_assoc]
    exact bracketedDigits?_digits nargs _

/-- The part of a line before the body is read as it was written. -/
theorem read?_parameters {line name body rest : Text} {nargs : Nat} (hname : IsCommand name)
    (hline : keywords.findSome? (Text.removePrefix? · (skipBlanks line)) =
      some (Symbol.parameters name nargs body ++ rest)) :
    Head.read? line =
      some ⟨name, if nargs = 0 then none else some (Decimal.digits nargs),
        '{' :: (body ++ '}' :: rest)⟩ := by
  obtain ⟨letters, hne, hletters, rfl⟩ := hname
  have hparameters : Symbol.parameters ('\\' :: letters) nargs body ++ rest =
      '{' :: '\\' :: (letters ++ '}' :: (Symbol.arity nargs ++ '{' :: (body ++ '}' :: rest))) := by
    simp [Symbol.parameters_eq]
  have hbrace : ∀ t : Text, Text.removePrefix? "\x7b\\" (skipBlanks ('{' :: '\\' :: t)) = some t :=
    fun _ => rfl
  have htake : ∀ t : Text, (letters ++ '}' :: t).takeWhile isLetter = letters := fun t => by
    rw [List.takeWhile_append_of_pos hletters,
      List.takeWhile_cons_of_neg (by decide), List.append_nil]
  have hdrop : ∀ t : Text,
      Text.removePrefix? "\x7d" ((letters ++ '}' :: t).dropWhile isLetter) = some t := fun t => by
    rw [List.dropWhile_append_of_pos hletters, List.dropWhile_cons_of_neg (by decide)]
    rfl
  have hempty : letters.isEmpty = false := by simpa using hne
  rw [Head.read?, hline, hparameters]
  simp only [Option.bind_eq_bind, Option.bind_some]
  split
  · rename_i hstar
    cases hstar
  · simp only [hbrace, hdrop, htake, hempty, Option.bind_some, bracketedDigits?_arity]
    by_cases h : nargs = 0
    · subst h
      rfl
    · rw [if_neg h, if_neg h]
      rfl

/-- A definition is read as it was written. -/
theorem read_parameters {line name body rest : Text} {nargs : Nat} (hname : IsCommand name)
    (hnargs : nargs < arityBound)
    (hbody : braceGroup? ('{' :: (body ++ '}' :: rest)) = some (body, rest))
    (hline : keywords.findSome? (Text.removePrefix? · (skipBlanks line)) =
      some (Symbol.parameters name nargs body ++ rest)) :
    Definition.read line = .definition ⟨name, nargs, body, commentOf rest⟩ := by
  have hvalue := Decimal.value_digits nargs
  rw [Definition.read, read?_parameters hname hline]
  by_cases h : nargs = 0
  · simp only [h, if_true, ofHead, hbody]
  · simp only [h, if_false, hvalue, hnargs, if_true, ofHead, hbody]

namespace Symbol

/-! ## The lines of a guarded definition -/

/-- The lines of `guarded`. -/
def guardedLines (name : Text) (nargs : Nat) (body : Text) : List Text :=
  ["\\ifdefined" ++ name ++ "%", "  \\renewcommand" ++ parameters name nargs body ++ "%", "\\else%",
    "  \\newcommand" ++ parameters name nargs body ++ "%", "\\fi"]

theorem guarded_append (name : Text) (nargs : Nat) (body rest : Text) :
    guarded name nargs body ++ rest =
      (guardedLines name nargs body).foldr (fun line t => line ++ '\n' :: t) rest := by
  have hre : ("%\n  \\renewcommand" : Text) = "%" ++ '\n' :: "  \\renewcommand" := rfl
  have helse : ("%\n\\else%\n  \\newcommand" : Text) =
      "%" ++ '\n' :: ("\\else%" ++ '\n' :: "  \\newcommand") := rfl
  have hfi : ("%\n\\fi\n" : Text) = "%" ++ '\n' :: ("\\fi" ++ ['\n']) := rfl
  unfold guarded guardedLines
  rw [hre, helse, hfi]
  simp only [List.foldr_cons, List.foldr_nil, List.append_assoc, List.cons_append, List.nil_append]

variable {name body : Text} {nargs : Nat}

theorem newline_notMem_command (h : IsCommand name) : '\n' ∉ name := by
  obtain ⟨letters, -, hletters, rfl⟩ := h
  intro hmem
  rcases List.mem_cons.1 hmem with heq | hmem
  · cases heq
  · cases hletters _ hmem

theorem newline_notMem_arity (nargs : Nat) : '\n' ∉ arity nargs := by
  unfold arity
  split
  · exact List.not_mem_nil
  · intro hmem
    have hdigits : '\n' ∉ Decimal.digits nargs :=
      fun h => by cases Decimal.isDigit_of_mem_digits nargs _ h
    simp [hdigits] at hmem

theorem newline_notMem_parameters (hname : IsCommand name) (hbody : '\n' ∉ body) (nargs : Nat) :
    '\n' ∉ parameters name nargs body := by
  rw [parameters_eq]
  simp [newline_notMem_command hname, newline_notMem_arity nargs, hbody]

theorem percent_ends_line {line : Text} (h : '\n' ∉ line) :
    '\n' ∉ line ++ ("%" : Text) ∧ (line ++ ("%" : Text)).getLast? ≠ some '\r' := by
  have hpercent : ("%" : Text) = ['%'] := rfl
  rw [hpercent, List.getLast?_append]
  simp [h]

/-- No line of a guarded definition holds a line feed or ends in a carriage return. -/
theorem ends_guardedLines (hname : IsCommand name) (hbody : '\n' ∉ body) (nargs : Nat) :
    ∀ line ∈ guardedLines name nargs body, '\n' ∉ line ∧ line.getLast? ≠ some '\r' := by
  have hparameters := newline_notMem_parameters hname hbody nargs
  have hcommand := newline_notMem_command hname
  have hif : '\n' ∉ ("\\ifdefined" : Text) ++ name := by
    rw [List.mem_append, not_or]
    exact ⟨by decide, hcommand⟩
  have hre : '\n' ∉ ("  \\renewcommand" : Text) ++ parameters name nargs body := by
    rw [List.mem_append, not_or]
    exact ⟨by decide, hparameters⟩
  have hnew : '\n' ∉ ("  \\newcommand" : Text) ++ parameters name nargs body := by
    rw [List.mem_append, not_or]
    exact ⟨by decide, hparameters⟩
  intro line hline
  simp only [guardedLines, List.mem_cons, List.not_mem_nil, or_false] at hline
  rcases hline with rfl | rfl | rfl | rfl | rfl
  · exact percent_ends_line hif
  · exact percent_ends_line hre
  · decide
  · exact percent_ends_line hnew
  · decide

/-- Every line of a guarded definition is a line of its text. -/
theorem lines_guarded_append (hname : IsCommand name) (hbody : '\n' ∉ body) (nargs : Nat)
    (rest : Text) :
    Text.lines (guarded name nargs body ++ rest) =
      guardedLines name nargs body ++ Text.lines rest := by
  rw [guarded_append, Text.lines_foldr (ends_guardedLines hname hbody nargs)]

/-- The lines of a guarded definition: two of them are definitions, and none is tagged. -/
theorem plainLines_guarded (hname : IsCommand name) (hnargs : nargs < arityBound)
    (hbody : ∀ u, braceGroup? ('{' :: (body ++ '}' :: u)) = some (body, u)) :
    PlainLines (guardedLines name nargs body) (List.replicate 2 ⟨name, nargs, body, []⟩) := by
  have hif : PlainLines ["\\ifdefined" ++ name ++ "%"] [] := .ordinary rfl (read_of_no_keyword rfl)
  have helse : PlainLines ["\\else%"] [] := .ordinary rfl (read_of_no_keyword rfl)
  have hfi : PlainLines ["\\fi"] [] := .ordinary rfl (read_of_no_keyword rfl)
  have hre : PlainLines ["  \\renewcommand" ++ parameters name nargs body ++ "%"]
      [⟨name, nargs, body, []⟩] :=
    .definition (read_parameters hname hnargs (hbody "%") rfl)
  have hnew : PlainLines ["  \\newcommand" ++ parameters name nargs body ++ "%"]
      [⟨name, nargs, body, []⟩] :=
    .definition (read_parameters hname hnargs (hbody "%") rfl)
  exact hif.append (hre.append (helse.append (hnew.append hfi)))

/-! ## All names of a symbol -/

/-- The lines of the definitions of several names, in front of other lines. -/
theorem plainLines_join {names : List Text} {tail : Text} {ds : List Definition}
    (hnames : ∀ n ∈ names, IsCommand n)
    (hnargs : nargs < arityBound) (hnewline : '\n' ∉ body)
    (hbody : ∀ u, braceGroup? ('{' :: (body ++ '}' :: u)) = some (body, u))
    (htail : PlainLines (Text.lines tail) ds) :
    PlainLines (Text.lines (Text.join "\n" (names.map fun name => guarded name nargs body) ++ tail))
      (names.flatMap (fun name => List.replicate 2 ⟨name, nargs, body, []⟩) ++ ds) := by
  induction names with
  | nil => exact htail
  | cons name names ih =>
    have hname := hnames name List.mem_cons_self
    have hfirst := plainLines_guarded hname hnargs hbody
    cases names with
    | nil =>
      rw [List.map_singleton, Text.join, lines_guarded_append hname hnewline]
      exact hfirst.append htail
    | cons next names =>
      have hrest := ih fun n hn => hnames n (List.mem_cons_of_mem _ hn)
      -- an empty line stands between the definitions of two names
      have hempty : PlainLines [[]] [] := .ordinary rfl rfl
      have hsplit :
          Text.join "\n" ((name :: next :: names).map fun name => guarded name nargs body) ++ tail =
          guarded name nargs body ++
          '\n' ::
            (Text.join "\n" ((next :: names).map fun name => guarded name nargs body) ++ tail) := by
        have hfeed : ("\n" : Text) = ['\n'] := rfl
        simp only [List.map_cons, Text.join, hfeed, List.append_assoc, List.cons_append,
          List.nil_append]
      rw [hsplit, lines_guarded_append hname hnewline, Text.lines, List.flatMap_cons,
        List.append_assoc]
      exact hfirst.append (hempty.append hrest)

/-- The comment behind the definitions of a symbol. -/
def trailer (s : Symbol) : Text := if s.comment.isEmpty then [] else "% " ++ s.comment

theorem regenerate_eq (s : Symbol) (f : Text → Text) :
    s.regenerate f =
      Text.join "\n" (s.names.map fun name => guarded name s.nargs (f s.body)) ++ s.trailer := by
  unfold regenerate trailer
  split <;> simp

theorem plainLines_trailer {s : Symbol} (h : '\n' ∉ s.comment) :
    PlainLines (Text.lines s.trailer) [] := by
  unfold trailer
  split
  · exact .nil
  · have hline : '\n' ∉ ("% " : Text) ++ s.comment := by
      rw [List.mem_append, not_or]
      exact ⟨by decide, h⟩
    rw [Text.lines_eq_singleton hline (by simp)]
    refine .ordinary rfl (read_eq_other fun r hr => ?_)
    cases hr

/-- The items are two definitions of each name of `s`, with the given body, and ordinary lines. -/
structure Regenerated (s : Symbol) (body : Text) (items : List Item) : Prop where
  definitions_eq : items.filterMap Item.definition? =
    s.names.flatMap fun name => List.replicate 2 ⟨name, s.nargs, body, []⟩
  /-- There are no errors and no tagged blocks. -/
  definition_or_ordinary : ∀ item ∈ items, (∃ d loc, item = .ok (.definition d loc)) ∨
    ∃ line loc, item = .ok (.passthrough line loc)

theorem regenerated {s : Symbol} (hnames : ∀ n ∈ s.names, IsCommand n)
    (hnargs : s.nargs < arityBound)
    (hcomment : '\n' ∉ s.comment) {f : Text → Text} (hnewline : '\n' ∉ f s.body)
    (hbody : ∀ u, braceGroup? ('{' :: (f s.body ++ '}' :: u)) = some (f s.body, u)) (file : Text) :
    Regenerated s (f s.body) (Token.stream file (s.regenerate f)) := by
  have hlines := plainLines_join hnames hnargs hnewline hbody (plainLines_trailer hcomment)
  rw [← regenerate_eq, List.append_nil] at hlines
  obtain ⟨hdefinitions, hitems⟩ := hlines.streamFrom file 0
  exact ⟨hdefinitions, hitems⟩

/-! ## Lines of a text -/

/-- Body and comment of a definition come from its line. -/
theorem newline_notMem_of_readable {line : Text} {d : Definition} (h : Readable line d)
    (hline : '\n' ∉ line) :
    '\n' ∉ d.body ∧ '\n' ∉ d.comment := by
  obtain ⟨before, rest, rfl, hcomment⟩ := h.line_eq
  refine ⟨fun hmem => hline (by simp [hmem]), fun hmem => ?_⟩
  rw [hcomment, commentOf] at hmem
  have hrest : '\n' ∈ rest := List.mem_of_mem_filter (Text.trim_subset _ hmem)
  exact hline (by simp [hrest])

/-- **What a symbol regenerates is read as definitions of its names**, with the body changed by `f`
if that keeps it a body, and with the body itself if it is not changed. -/
theorem stream_regenerate {text line : Text} {d : Definition} {s : Symbol}
    (hline : line ∈ Text.lines text) (hd : Definition.read line = .definition d)
    (hs : s.toDefinition = d) (hsynonyms : ∀ n ∈ s.synonyms, IsCommand n) (file : Text) :
    (∀ f : Text → Text, '\n' ∉ f d.body →
      braceGroup? ('{' :: (f d.body ++ ['}'])) = some (f d.body, []) →
      Regenerated s (f d.body) (Token.stream file (s.regenerate f))) ∧
      Regenerated s d.body (Token.stream file s.texDefinition) := by
  subst hs
  have hreadable := readable_of_read hd
  obtain ⟨hbody, hcomment⟩ := newline_notMem_of_readable hreadable (Text.notMem_of_mem_lines hline)
  have hnames : ∀ n ∈ s.names, IsCommand n :=
    List.forall_mem_cons.2 ⟨hreadable.isCommand, hsynonyms⟩
  constructor
  · intro f hnewline hgroup
    obtain ⟨-, hu⟩ := braceGroup?_eq_some hgroup
    exact regenerated hnames hreadable.nargs_lt hcomment hnewline hu file
  · exact regenerated (f := id) hnames hreadable.nargs_lt hcomment hbody hreadable.group_eq file

/-- A line with groups, an escaped brace and a comment that begins like a tag. -/
def halfLine : Text :=
  "\\newcommand\x7b\\half\x7d[1]\x7b\\frac\x7b1\x7d\x7b#1\x7d\\\x7d\x7d % : a half"

/-- Its symbol, with another name. -/
def half : Symbol where
  command := "\\half"
  nargs := 1
  body := "\\frac\x7b1\x7d\x7b#1\x7d\\\x7d"
  comment := ": a half"
  synonyms := ["\\hf"]
  owner := []
  sample := none
  nomenclature := none
  attributes := .empty
  loc := ⟨[], 0, []⟩
  order := 0

/-- A text in braces. -/
def inBraces (t : Text) : Text := '{' :: (t ++ ['}'])

theorem stream_regenerate_half :
    halfLine ∈ Text.lines halfLine ∧ Definition.read halfLine = .definition half.toDefinition ∧
      (∀ n ∈ half.synonyms, IsCommand n) ∧ '\n' ∉ inBraces half.body ∧
      braceGroup? ('{' :: (inBraces half.body ++ ['}'])) = some (inBraces half.body, []) ∧
      Regenerated half (inBraces half.body) (Token.stream "half.tex" (half.regenerate inBraces)) ∧
      Regenerated half half.body (Token.stream "half.tex" half.texDefinition) := by
  have hline : halfLine ∈ Text.lines halfLine := by decide
  have hd : Definition.read halfLine = .definition half.toDefinition := by decide
  have hsynonyms : ∀ n ∈ half.synonyms, IsCommand n := by
    intro n hn
    obtain rfl := List.mem_singleton.1 hn
    exact ⟨"hf", by decide, List.all_eq_true.1 rfl, rfl⟩
  have hnewline : '\n' ∉ inBraces half.body := by decide
  have hgroup : braceGroup? ('{' :: (inBraces half.body ++ ['}'])) =
      some (inBraces half.body, []) := by decide
  obtain ⟨hchanged, hsame⟩ := stream_regenerate hline hd rfl hsynonyms "half.tex"
  exact ⟨hline, hd, hsynonyms, hnewline, hgroup, hchanged inBraces hnewline hgroup, hsame⟩

end Symbol

end TexSymbols

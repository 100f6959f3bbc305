import TexSymbols.Proofs.Text.Quoted
import TexSymbols.Proofs.Text.Visible
import TexSymbols.Proofs.Usage.Tokens

/-!
# The characters of a written usage map

* `isPrintable_of_isVisible`, `isBreak_of_isVisible` — what is visible may be written, and breaks no
  line.
* `printable_writeScalar` — a string is written with printable characters only, whatever it holds.
* `UsageMap.printable_toYaml` — so is a usage map; `isReadable_of_printable` and
  `normaliseBreaks_of_printable` — such a text may be read, and its line breaks stay.
-/

namespace TexSymbols

variable {c : Char} {t : Text}

/-! ## Visible characters -/

/-- The ranges of characters that are not printable. -/
def controlRanges : List (Nat × Nat) :=
  [(0x0, 0x1f), (0x7f, 0xa0), (0xfefd, 0xff00), (0xfffe, 0xffff)]

theorem not_control (h : isVisible c = true) (first last : Nat)
    (hrange : (first, last) ∈ controlRanges) : c.toNat < first ∨ last < c.toNat := by
  have hall : controlRanges.all (· ∈ hiddenRanges) = true := by decide +kernel
  have hmem := of_decide_eq_true (List.all_eq_true.1 hall (first, last) hrange)
  by_contra hnot
  rw [isVisible_eq_false hmem (by omega)] at h
  cases h

/-- What is visible is printable. -/
theorem isPrintable_of_isVisible (h : isVisible c = true) : Yaml.isPrintable c = true := by
  have hcontrol := not_control h 0x0 0x1f (by decide)
  have hdelete := not_control h 0x7f 0xa0 (by decide)
  have hmark := not_control h 0xfefd 0xff00 (by decide)
  have hlast := not_control h 0xfffe 0xffff (by decide)
  simp only [Yaml.isPrintable, Bool.or_eq_true, Bool.and_eq_true, beq_iff_eq, bne_iff_ne,
    decide_eq_true_eq]
  omega

/-- What is visible breaks no line. -/
theorem isBreak_of_isVisible (h : isVisible c = true) : Yaml.isBreak c = false := by
  have hall : ['\n', '\r', '\u0085', '\u2028', '\u2029'].all (!isVisible ·) = true := by
    decide +kernel
  by_contra hbreak
  rw [Bool.not_eq_false, Yaml.isBreak, decide_eq_true_eq] at hbreak
  have hnot := List.all_eq_true.1 hall c hbreak
  rw [h] at hnot
  cases hnot

/-! ## Written strings -/

/-- All characters of the text are printable. -/
def Printable (t : Text) : Prop := ∀ c ∈ t, Yaml.isPrintable c = true

theorem Printable.cons (hc : Yaml.isPrintable c = true) (ht : Printable t) : Printable (c :: t) :=
  List.forall_mem_cons.2 ⟨hc, ht⟩

theorem Printable.append {s t : Text} (hs : Printable s) (ht : Printable t) : Printable (s ++ t) := by
  intro c hc
  exact (List.mem_append.1 hc).elim (hs c) (ht c)

theorem Printable.flatMap {α : Type} {xs : List α} {f : α → Text} (h : ∀ x ∈ xs, Printable (f x)) :
    Printable (xs.flatMap f) := by
  intro c hc
  obtain ⟨x, hx, hc⟩ := List.mem_flatMap.1 hc
  exact h x hx c hc

theorem Printable.of_all (h : t.all Yaml.isPrintable = true) : Printable t := List.all_eq_true.1 h

theorem Printable.of_word (h : ∀ c ∈ t, Yaml.isWordSign c = true) : Printable t :=
  fun c hc => (Yaml.isWordSign_spec (h c hc)).1

theorem Printable.spaces (n : Nat) : Printable (Yaml.spaces n) := by
  intro c hc
  rw [List.eq_of_mem_replicate hc]
  rfl

theorem Printable.endLine (h : Printable t) : Printable (Yaml.endLine t) := by
  unfold Yaml.endLine
  split
  · exact h
  · exact h.append (.of_all rfl)

theorem Printable.indentation (atLine : Bool) (indent : Nat) :
    Printable (if atLine = true then Yaml.spaces indent else []) := by
  split
  · exact .spaces indent
  · exact .of_all rfl

theorem Printable.singleBody (h : Printable t) (indent : Nat) (atLine : Bool) :
    Printable (Yaml.singleBody indent atLine t) := by
  induction t generalizing atLine with
  | nil =>
    rw [Yaml.singleBody]
    exact .indentation atLine indent
  | cons c t ih =>
    rw [Printable, List.forall_mem_cons] at h
    rw [Yaml.singleBody]
    split
    · exact .cons h.1 (ih h.2 true)
    · refine ((Printable.indentation atLine indent).append ?_).append (ih h.2 false)
      split
      · exact .of_all rfl
      · exact .cons h.1 (.of_all rfl)

theorem Printable.literalBody (h : Printable t) (indent : Nat) (atLine : Bool) :
    Printable (Yaml.literalBody indent atLine t) := by
  induction t generalizing atLine with
  | nil => exact .of_all rfl
  | cons c t ih =>
    rw [Printable, List.forall_mem_cons] at h
    rw [Yaml.literalBody]
    split
    · exact .cons h.1 (ih h.2 true)
    · exact (Printable.indentation atLine indent).append (.cons h.1 (ih h.2 false))

theorem printable_literalHeader (t : Text) : Printable (Yaml.literalHeader t) := by
  have hindentation : Printable (Yaml.indentationMark t) := by
    unfold Yaml.indentationMark
    split
    · exact .of_all rfl
    · exact .of_all rfl
  have hmark : Printable (Yaml.chompingOf t).mark := by
    cases Yaml.chompingOf t <;> exact .of_all rfl
  rw [Yaml.literalHeader_eq]
  exact (Printable.cons rfl (hindentation.append hmark)).append (.of_all rfl)

theorem printable_hexDigits (n value : Nat) : Printable (Yaml.hexDigits n value) := by
  have hall : (List.range 16).all (fun d => Yaml.isPrintable (Nat.digitChar d).toUpper) = true := by
    decide +kernel
  intro c hc
  obtain ⟨i, -, rfl⟩ := List.mem_map.1 hc
  exact List.all_eq_true.1 hall _ (List.mem_range.2 (Nat.mod_lt _ (by decide)))

theorem printable_doubleChar (c : Char) : Printable (Yaml.doubleChar c) := by
  unfold Yaml.doubleChar
  split
  · rename_i h
    simp only [Bool.and_eq_true] at h
    exact .cons h.1.1.1 (.of_all rfl)
  split
  · rename_i letter h
    exact .cons rfl (.cons (Yaml.escaped?_escapeLetter? h).2.2.2 (.of_all rfl))
  split
  · exact .append (.of_all rfl) (printable_hexDigits _ _)
  split
  · exact .append (.of_all rfl) (printable_hexDigits _ _)
  · exact .append (.of_all rfl) (printable_hexDigits _ _)

/-- **A string is written with printable characters only**, whatever it holds. -/
theorem printable_writeScalar (indent : Nat) (t : Text) : Printable (Yaml.writeScalar indent t) := by
  have hstyled := Yaml.styled_styleOf t
  unfold Yaml.writeScalar
  generalize Yaml.styleOf t = style at hstyled
  cases hstyled with
  | plain _ hplain => exact Yaml.printable_of_plainAllowed hplain
  | single _ hsingle =>
    have hbody := Printable.singleBody (Yaml.printable_of_singleAllowed hsingle) indent false
    exact (Printable.append (.of_all rfl) hbody).append (.of_all rfl)
  | double =>
    have hbody := Printable.flatMap fun c (_ : c ∈ t) => printable_doubleChar c
    exact (Printable.append (.of_all rfl) hbody).append (.of_all rfl)
  | literal _ hliteral =>
    exact (printable_literalHeader t).append
      (.literalBody (Yaml.printable_of_literalAllowed hliteral) indent true)

/-! ## Written usage maps -/

theorem Printable.field {name value : Text} (hname : IsName name) (hvalue : Printable value) :
    Printable (Yaml.endLine (name ++ ": " ++ value)) :=
  .endLine ((Printable.of_word hname.word).append (.of_all rfl) |>.append hvalue)

theorem printable_use (column : Nat) (u : Use) : Printable (u.toYaml column) := by
  have hlabel : Printable (writeLabel column u.label) := by
    cases u.label with
    | none => exact .of_all rfl
    | some t => exact printable_writeScalar (column + 2) t
  have hdigits : Printable (Decimal.digits u.line) := .of_word fun c hc => isWordSign_of_mem_digits hc
  have hwritten := toYaml_append u column []
  rw [List.append_nil] at hwritten
  rw [hwritten]
  exact (Printable.field (isName_of_all rfl) (printable_writeScalar (column + 2) u.file)).append
    ((Printable.spaces column).append ((Printable.field (isName_of_all rfl) hdigits).append
      ((Printable.spaces column).append ((Printable.field (isName_of_all rfl) hlabel).append
        (.of_all rfl)))))

theorem printable_uses (column : Nat) (uses : List Use) :
    Printable (Text.join (Yaml.spaces column) (UsageMap.usesToYaml column uses)) := by
  intro c hc
  rcases Text.mem_join hc with hc | ⟨written, hwritten, hc⟩
  · exact Printable.spaces column c hc
  · obtain ⟨u, -, rfl⟩ := List.mem_map.1 hwritten
    exact (Printable.append (.of_all rfl) (printable_use (column + 2) u)) c hc

theorem printable_entry {command : Text} (hcommand : IsCommand command) (uses : List Use) :
    Printable (UsageMap.entryToYaml command uses) := by
  have hword : Printable command := .of_word (isWordSign_of_isCommand hcommand)
  have hflat : Printable (UsageMap.usesToYaml 0 uses).flatten := by
    rw [← join_nil]
    exact printable_uses 0 uses
  have hend : Printable (Yaml.endLine ("? " ++ command)) := .endLine (.append (.of_all rfl) hword)
  unfold UsageMap.entryToYaml
  rw [writeScalar_command hcommand]
  split <;> dsimp only <;> split
  · exact (hword.append (.of_all rfl)).append (.of_all rfl)
  · exact ((hword.append (.of_all rfl)).append (.of_all rfl)).append hflat
  · exact (hend.append (.of_all rfl)).append (.of_all rfl)
  · exact ((hend.append (.of_all rfl)).append (.of_all rfl)).append (printable_uses 2 uses)

/-- **A usage map is written with printable characters only**, whatever the file names and labels
hold. -/
theorem UsageMap.printable_toYaml {m : UsageMap} (hm : ∀ e ∈ m.entries, IsCommand e.1)
    (files : List Text) : Printable (m.toYaml files) := by
  have hfiles : Printable (Text.quotedList files) :=
    fun c hc => isPrintable_of_isVisible (Text.isVisible_of_mem_quotedList hc)
  have hbody : Printable m.bodyToYaml := by
    unfold UsageMap.bodyToYaml
    split
    · exact .of_all rfl
    · exact .flatMap fun e he => printable_entry (hm e he) e.2
  exact ((Printable.append (.of_all rfl) hfiles).append (.of_all rfl)).append hbody

/-! ## Reading -/

theorem isReadable_of_printable (h : Printable t) : t.all Yaml.isReadable = true := by
  rw [List.all_eq_true]
  intro c hc
  rw [Yaml.isReadable, h c hc, Bool.true_or]

/-- Line breaks stay as they were written. -/
theorem normaliseBreaks_of_printable (h : Printable t) : Yaml.normaliseBreaks t = t := by
  induction t with
  | nil => rfl
  | cons c t ih =>
    rw [Printable, List.forall_mem_cons] at h
    have hreturn : c ≠ '\r' := by
      rintro rfl
      cases h.1
    have hnext : c ≠ '\u0085' := by
      rintro rfl
      cases h.1
    rw [Yaml.normaliseBreaks.eq_2, if_neg (by simp [hreturn, hnext]), ih h.2]
    exact fun _ hc => absurd hc hreturn

end TexSymbols

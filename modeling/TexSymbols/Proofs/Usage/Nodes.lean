import TexSymbols.Proofs.OrderedMap
import TexSymbols.Proofs.Results
import TexSymbols.Proofs.Usage.Tokens
import TexSymbols.Proofs.Yaml.Event

/-!
# The nodes of a written usage map

* `Use.events`, `entryEvents`, `UsageMap.events` — the events of a usage map and of its parts;
  `ofTokens?_tokens` — its tokens become these events.
* `Use.node`, `UsageMap.node` — its nodes; `builds_node` — the events are theirs.
* `readUse_node`, `readEntry_node` — what is read of the nodes are the uses.
-/

namespace TexSymbols

open Yaml (Builds Expected Feeds Form Handles Node Numbers)

variable {α : Type} {stack : List Expected}

/-! ## Events -/

/-- The events of a field. -/
def fieldEvents (field : Text × Form × Text) : List (Yaml.Event α) :=
  [.scalar none none .plain field.1] ++ [.scalar none none field.2.1 field.2.2]

def Use.events (u : Use) : List (Yaml.Event α) :=
  .mappingStart none :: (u.fields.flatMap fieldEvents ++ [.mappingEnd])

def usesEvents (uses : List Use) : List (Yaml.Event α) :=
  .sequenceStart none :: (uses.flatMap Use.events ++ [.sequenceEnd])

def entryEvents (entry : Text × List Use) : List (Yaml.Event α) :=
  [.scalar none none .plain entry.1] ++ usesEvents entry.2

def UsageMap.events (m : UsageMap) : List (Yaml.Event α) :=
  .mappingStart none :: (m.entries.flatMap entryEvents ++ [.mappingEnd])

/-! ## From tokens to events -/

theorem feeds_field (field : Text × Form × Text) :
    Feeds (.key :: stack) (fieldTokens field) (fieldEvents field) (.key :: stack) :=
  .silent (fun _ => rfl) (.event (fun _ => rfl) (.silent (fun _ => rfl) (.event (fun _ => rfl)
    (.nil _))))

/-- A use where a node is expected. -/
theorem feeds_use (u : Use) :
    Feeds (.node true false false {} :: stack) (u.tokens ++ [.blockEnd]) u.events stack := by
  have hfields : Feeds (.key :: stack) (u.fields.flatMap fieldTokens)
    (u.fields.flatMap fieldEvents) (.key :: stack) := .flatMap fun field _ => feeds_field field
  have hend : Feeds (.key :: stack) [.blockEnd] [.mappingEnd] stack :=
    .event (fun _ => rfl) (.nil _)
  exact .event (fun _ => rfl) (hfields.append hend)

/-- The uses in a sequence that has begun. -/
theorem feeds_uses {e : Expected} (he : e = .entry ∨ e = .openEntry) (uses : List Use) :
    Feeds (e :: stack) (usesTokens uses) (uses.flatMap Use.events) (e :: stack) := by
  refine .flatMap fun u _ => ?_
  rcases he with rfl | rfl
  · exact .silent (fun _ => rfl) (feeds_use u)
  · exact .silent (fun _ => rfl) (feeds_use u)

/-- A sequence without an end of its own ends before the first token that is no dash. -/
theorem feedAll?_openEntry {t : Yaml.Token} (ht : t ≠ .entry) (handles : Handles)
    (ts : List Yaml.Token) :
    Yaml.feedAll? handles (.openEntry :: stack) (t :: ts) =
      (Yaml.feedAll? handles stack (t :: ts)).map (.sequenceEnd :: ·) := by
  have hfeed : Yaml.feed? handles (.openEntry :: stack) t =
      (Yaml.feed? handles stack t).map fun r => (.sequenceEnd :: r.1, r.2) := by
    cases t <;> first | exact absurd rfl ht | rfl
  rw [Yaml.feedAll?, hfeed]
  cases stack with
  | nil => rfl
  | cons e stack =>
    rw [Yaml.feedAll?]
    cases Yaml.feed? handles (e :: stack) t with
    | none => rfl
    | some r =>
      simp only [Option.map_some, Option.bind_eq_bind, Option.bind_some]
      cases Yaml.feedAll? handles r.2 ts <;> rfl

/-- A command and its uses, before a token that is no dash. -/
theorem feedAll?_entry {command : Text} {uses : List Use} (huses : uses ≠ []) {t : Yaml.Token}
    (ht : t ≠ .entry) (handles : Handles) (ts : List Yaml.Token) :
    Yaml.feedAll? handles (.key :: stack) (entryTokens command uses ++ t :: ts) =
      (Yaml.feedAll? handles (.key :: stack) (t :: ts)).map (entryEvents (command, uses) ++ ·) := by
  unfold entryTokens
  split
  · obtain ⟨u, uses, rfl⟩ := List.exists_cons_of_ne_nil huses
    have hopened : Feeds (.key :: stack)
        (.key :: .scalar .plain command :: .value :: usesTokens (u :: uses))
        (.scalar none none .plain command :: .sequenceStart none :: (u :: uses).flatMap Use.events)
        (.openEntry :: .key :: stack) :=
      .silent (fun _ => rfl) (.event (fun _ => rfl) (.silent (fun _ => rfl) (.event (fun _ => rfl)
        ((feeds_use u).append (feeds_uses (.inr rfl) uses)))))
    rw [hopened, feedAll?_openEntry ht, Option.map_map]
    simp [Function.comp_def, entryEvents, usesEvents]
  · have hclosed : Feeds (.key :: stack)
        (.key :: .scalar .plain command :: .value ::
          .blockSequenceStart :: (usesTokens uses ++ [.blockEnd]))
        (entryEvents (command, uses)) (.key :: stack) :=
      .silent (fun _ => rfl) (.event (fun _ => rfl) (.silent (fun _ => rfl) (.event (fun _ => rfl)
        ((feeds_uses (.inl rfl) uses).append (.event (fun _ => rfl) (.nil _))))))
    exact hclosed handles _

/-- All commands of a mapping, up to its end. -/
theorem feedAll?_entries {entries : List (Text × List Use)} (huses : ∀ e ∈ entries, e.2 ≠ [])
    (handles : Handles) (ts : List Yaml.Token) :
    Yaml.feedAll? handles (.key :: stack)
        ((entries.flatMap fun e => entryTokens e.1 e.2) ++ .blockEnd :: ts) =
      (Yaml.feedAll? handles stack ts).map (entries.flatMap entryEvents ++ .mappingEnd :: ·) := by
  induction entries with
  | nil =>
    have hend : Feeds (.key :: stack) [.blockEnd] [.mappingEnd] stack :=
      .event (fun _ => rfl) (.nil _)
    exact hend handles ts
  | cons e entries ih =>
    rw [List.forall_mem_cons] at huses
    -- what follows is another command or the end of the mapping
    obtain ⟨t, more, hmore, ht⟩ : ∃ t more, (entries.flatMap fun e => entryTokens e.1 e.2) ++
        .blockEnd :: ts = t :: more ∧ t ≠ Yaml.Token.entry := by
      cases entries with
      | nil => exact ⟨_, _, rfl, by simp⟩
      | cons e entries => exact ⟨_, _, rfl, by simp⟩
    have hrest := ih huses.2
    rw [hmore] at hrest
    rw [List.flatMap_cons, List.append_assoc, hmore, feedAll?_entry huses.1 ht, hrest, Option.map_map]
    simp [Function.comp_def]

/-- **The tokens of a usage map** become its events. -/
theorem ofTokens?_tokens {m : UsageMap} (huses : ∀ e ∈ m.entries, e.2 ≠ []) :
    Yaml.Event.ofTokens? m.tokens = some m.events := by
  unfold UsageMap.tokens UsageMap.events
  cases hentries : m.entries with
  | nil => rfl
  | cons e entries =>
    rw [hentries] at huses
    have hstart : Feeds [.node true false true {}, .documentEnd] [.blockMappingStart]
      [.mappingStart none] [.key, .documentEnd] := .event (fun _ => rfl) (.nil _)
    have hend : Yaml.feedAll? Yaml.commonHandles [.documentEnd] [.streamEnd] = some [] := rfl
    have hrest := hstart Yaml.commonHandles
      (((e :: entries).flatMap fun e => entryTokens e.1 e.2) ++ [.blockEnd, .streamEnd])
    rw [feedAll?_entries huses, hend] at hrest
    exact hrest

/-- The events of a usage map have no anchors. -/
theorem numbers_events (m : UsageMap) : Numbers m.events m.events := by
  have hfield : ∀ field, Numbers (fieldEvents field) (fieldEvents field) := fun _ =>
    .cons rfl (fun _ => rfl) (.cons rfl (fun _ => rfl) .nil)
  have huse : ∀ u : Use, Numbers u.events u.events := fun u =>
    .cons rfl (fun _ => rfl) ((Numbers.flatMap fun field _ => hfield field).append
      (.cons rfl (fun _ => rfl) .nil))
  have hentry : ∀ e, Numbers (entryEvents e) (entryEvents e) := fun e =>
    .cons rfl (fun _ => rfl) (.cons rfl (fun _ => rfl) ((Numbers.flatMap fun u _ => huse u).append
      (.cons rfl (fun _ => rfl) .nil)))
  exact .cons rfl (fun _ => rfl) ((Numbers.flatMap fun e _ => hentry e).append
    (.cons rfl (fun _ => rfl) .nil))

/-! ## Nodes -/

def Use.node (u : Use) : Node :=
  .mapping (u.fields.map fun field => (.scalar none .plain field.1, .scalar none field.2.1 field.2.2))

def usesNode (uses : List Use) : Node := .sequence (uses.map Use.node)

def UsageMap.node (m : UsageMap) : Node :=
  .mapping (m.entries.map fun e => (.scalar none .plain e.1, usesNode e.2))

/-- **The events of a usage map** are those of its node. -/
theorem builds_node (m : UsageMap) : Builds m.node m.events := by
  have huse : ∀ u : Use, Builds u.node u.events := fun u =>
    .mapping (fun field _ => ⟨.scalar none none _ _, .scalar none none _ _⟩) none
  have huses : ∀ uses : List Use, Builds (usesNode uses) (usesEvents uses) := fun uses =>
    .sequence (fun u _ => huse u) none
  exact .mapping (fun e _ => ⟨.scalar none none _ _, huses e.2⟩) none

/-! ## Line numbers -/

theorem mapM_map_eq_pure {m : Type → Type} [Monad m] [LawfulMonad m] {β γ : Type} {xs : List γ}
    {f : γ → β} {step : β → m γ} (h : ∀ x ∈ xs, step (f x) = pure x) :
    (xs.map f).mapM step = pure xs := by
  rw [List.mapM_map]
  exact (mapM_eq_pure h).trans (by rw [List.map_id'])

theorem digitValue?_of_isDigit {c : Char} (h : c.isDigit = true) :
    Yaml.digitValue? 10 c = some (c.toNat - '0'.toNat) := by
  have hlt : c.toNat - 48 < 10 := by
    have hle : c.toNat ≤ 57 := by
      simp only [Char.isDigit, Bool.and_eq_true, decide_eq_true_eq, UInt32.le_iff_toNat_le] at h
      exact h.2
    omega
  simp [Yaml.digitValue?, h, hlt]

/-- The value of decimal digits, read as YAML does. -/
theorem numeral?_digits (n : Nat) : Yaml.numeral? 10 (Decimal.digits n) = some n := by
  have hdigits := Decimal.isDigit_of_mem_digits n
  have hvalue := Decimal.value_digits n
  have hne := Decimal.digits_ne_nil n
  generalize Decimal.digits n = t at hdigits hvalue hne
  have hmap : t.mapM (Yaml.digitValue? 10) = some (t.map fun c => c.toNat - '0'.toNat) :=
    mapM_eq_pure fun c hc => digitValue?_of_isDigit (hdigits c hc)
  obtain ⟨c, t, rfl⟩ := List.exists_cons_of_ne_nil hne
  rw [Yaml.numeral?.eq_2 _ _ (List.cons_ne_nil c t), hmap, Option.map_some, List.foldl_map, ← hvalue]
  rfl

/-- A number that is not zero does not begin with a zero. -/
theorem head?_digits {n : Nat} (h : 0 < n) : (Decimal.digits n).head? ≠ some '0' := by
  fun_induction Decimal.digits n with
  | case1 n hn =>
    intro hhead
    have hvalue := Decimal.toNat_digit n hn
    rw [Option.some.inj hhead, Nat.sub_self] at hvalue
    exact Nat.ne_of_lt h hvalue
  | case2 n hn ih =>
    rw [List.head?_append_of_ne_nil _ (Decimal.digits_ne_nil _)]
    exact ih (by omega)

/-- Decimal digits are read as a line number. -/
theorem lineNumber?_digits {n : Nat} (h : n < Nat.pow 2 64) :
    lineNumber? (.scalar none .plain (Decimal.digits n)) = some n := by
  rcases Nat.eq_zero_or_pos n with rfl | hpos
  · have hzero : Decimal.digits 0 = ['0'] := by
      rw [Decimal.digits]
      rfl
    rw [hzero]
    rfl
  · have hnumeral := numeral?_digits n
    have hdigit := Decimal.isDigit_of_mem_digits n
    have hhead := head?_digits hpos
    obtain ⟨c, t, hct⟩ := List.exists_cons_of_ne_nil (Decimal.digits_ne_nil n)
    rw [hct] at hnumeral hdigit hhead ⊢
    have hsigns : c ≠ '+' ∧ c ≠ '-' := by
      have hc := hdigit c List.mem_cons_self
      constructor <;> rintro rfl <;> cases hc
    have hzero : c ≠ '0' := by simpa using hhead
    have hled : Yaml.isZeroLed (c :: t) = false := by
      have hunsigned : Yaml.unsigned (c :: t) = c :: t := by
        rw [Yaml.unsigned.eq_3]
        · simp [hsigns.1]
        · simp [hsigns.2]
      rw [Yaml.isZeroLed, hunsigned]
      split
      · rename_i heq
        exact absurd (List.cons.inj heq).1 hzero
      · rfl
    have hbased : Yaml.basedNumeral? (c :: t) = some n := by
      rw [Yaml.basedNumeral?.eq_4, hnumeral]
      · simp [hzero]
      · simp [hzero]
      · simp [hzero]
    have hsign : Text.removePrefix? ['+'] (c :: t) = none := by
      simp [Text.removePrefix?, Ne.symm hsigns.1]
    simp [lineNumber?, mayBeNumber, hled, hsign, hbased, h]

/-! ## Reading -/

variable (d : Yaml.Document)

theorem readText_scalar (tag : Option Text) (form : Form) (t : Text) :
    readText d (.scalar tag form t) = pure t := rfl

/-- What is written plain is no null. -/
theorem isNull_of_formOf {t : Text} (h : Yaml.formOf t = .plain) : Yaml.isNull t = false := by
  have hstyled := Yaml.styled_styleOf t
  unfold Yaml.formOf at h
  generalize Yaml.styleOf t = style at hstyled h
  cases hstyled with
  | plain _ _ himplicit =>
    simp only [Yaml.isImplicit, Bool.or_eq_false_iff] at himplicit
    exact himplicit.1.1.1.1
  | single => cases h
  | double => cases h
  | literal => cases h

/-- The label of a use is read as it was written. -/
theorem label?_node (label : Option Text) : label?
    (.scalar none (label.elim (Form.plain, ("null" : Text)) fun t => (Yaml.formOf t, t)).1
      (label.elim (Form.plain, ("null" : Text)) fun t => (Yaml.formOf t, t)).2) = some label := by
  cases label with
  | none => rfl
  | some t =>
    simp only [Option.elim_some]
    cases hform : Yaml.formOf t with
    | plain => simp [label?, isNull_of_formOf hform]
    | literal => rfl
    | other => rfl

theorem readUse_node {u : Use} (h : u.line < Nat.pow 2 64) : readUse d u.node = pure u := by
  have hfile : UseFields.read d {} (.scalar none .plain "filename",
      .scalar none (Yaml.formOf u.file) u.file) = pure { file := some u.file } := rfl
  have hnumber : StateT.lift (lineNumber? (.scalar none .plain (Decimal.digits u.line))) =
      (pure u.line : Yaml.Following Nat) := by
    rw [lineNumber?_digits h]
    rfl
  have hlabel : StateT.lift (label? (.scalar none
      (u.label.elim (Form.plain, ("null" : Text)) fun t => (Yaml.formOf t, t)).1
      (u.label.elim (Form.plain, ("null" : Text)) fun t => (Yaml.formOf t, t)).2)) =
      (pure u.label : Yaml.Following (Option Text)) := by
    rw [label?_node]
    rfl
  have hline : UseFields.read d { file := some u.file } (.scalar none .plain "line",
      .scalar none .plain (Decimal.digits u.line)) =
        pure { file := some u.file, line := some u.line } :=
    congrArg (· >>= fun line => pure ({ file := some u.file, line := some line } : UseFields)) hnumber
  have hlast : UseFields.read d { file := some u.file, line := some u.line }
      (.scalar none .plain "last_label", .scalar none
        (u.label.elim (Form.plain, ("null" : Text)) fun t => (Yaml.formOf t, t)).1
        (u.label.elim (Form.plain, ("null" : Text)) fun t => (Yaml.formOf t, t)).2) =
        pure ⟨some u.file, some u.line, some u.label⟩ :=
    congrArg (· >>= fun label => pure (⟨some u.file, some u.line, some label⟩ : UseFields)) hlabel
  have hread : readUse d u.node = [_, _, _].foldlM (UseFields.read d) {} >>= fun fields =>
    StateT.lift fields.use? := rfl
  rw [hread, List.foldlM_cons, hfile, pure_bind, List.foldlM_cons, hline, pure_bind,
    List.foldlM_cons, hlast, pure_bind, List.foldlM_nil, pure_bind]
  rfl

theorem readEntry_node {e : Text × List Use} (h : ∀ u ∈ e.2, u.line < Nat.pow 2 64) :
    readEntry d (.scalar none .plain e.1, usesNode e.2) = pure e := by
  have huses : readUses d (usesNode e.2) = (e.2.map Use.node).mapM (readUse d) := rfl
  rw [readEntry, readText_scalar, huses, mapM_map_eq_pure fun u hu => readUse_node d (h u hu),
    pure_bind, pure_bind]

/-- **What is read of the node of a usage map** is the map. -/
theorem read_node {m : UsageMap} (h : ∀ e ∈ m.entries, ∀ u ∈ e.2, u.line < Nat.pow 2 64) :
    (do (← StateT.lift (← d.follow m.node).pairs?).mapM (readEntry d) :
      Yaml.Following (List (Text × List Use))) = pure m.entries :=
  mapM_map_eq_pure fun e he => readEntry_node d (h e he)

end TexSymbols

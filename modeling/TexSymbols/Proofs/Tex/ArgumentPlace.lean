import TexSymbols.Proofs.Tex.Argument
import TexSymbols.Proofs.Tex.Command
import TexSymbols.Proofs.Text.Split

/-!
# Where arguments of given commands stand

* `ArgumentPlace`, `ArgumentPlace.StandsIn` — a command with an argument, written in a text.
* `argumentPlaces`, `map_argument_argumentPlaces` — the places of the arguments that `arguments`
  finds.
* `mem_argumentPlaces_iff`, `pairwise_argumentPlaces` — they are the places where one of the commands
  is written, from the left to the right, whatever stands before.
* `isCommand_iff_even` — a command starts at such a place exactly if the backslashes before it come
  in pairs.
* `isGroup_iff_even` — the argument in its braces is a group exactly if the backslashes at its end do.
-/

namespace TexSymbols

variable {names : List Text} {t a : Text} {p q : ArgumentPlace}

/-- A place in a text where a command and its argument are written. -/
structure ArgumentPlace where
  /-- What stands before the backslash. -/
  before : Text
  /-- The name of the command, without the backslash. -/
  name : Text
  argument : Text
deriving DecidableEq

namespace ArgumentPlace

def command (p : ArgumentPlace) : Text := '\\' :: p.name

/-- The place in a text that begins with one more character. -/
def behind (c : Char) (p : ArgumentPlace) : ArgumentPlace := { p with before := c :: p.before }

/-- The command is written at this place of the text, with the argument in braces behind it. -/
def StandsIn (p : ArgumentPlace) (t : Text) : Prop :=
  '{' ∉ p.argument ∧ '}' ∉ p.argument ∧
    ∃ after, t = p.before ++ (p.command ++ '{' :: (p.argument ++ '}' :: after))

/-- A text with two such places behind the same beginning has them once. -/
theorem StandsIn.unique (hp : p.StandsIn t) (hq : q.StandsIn t) (hbefore : p.before = q.before)
    (hpname : '{' ∉ p.name) (hqname : '{' ∉ q.name) : p = q := by
  obtain ⟨-, hpclose, after, rfl⟩ := hp
  obtain ⟨-, hqclose, after', heq⟩ := hq
  rw [hbefore] at heq
  have hbehind : p.name ++ '{' :: (p.argument ++ '}' :: after) =
      q.name ++ '{' :: (q.argument ++ '}' :: after') :=
    (List.cons.inj (List.append_cancel_left heq)).2
  have hname := Text.splitOnce_append hpname (p.argument ++ '}' :: after)
  rw [hbehind, Text.splitOnce_append hqname] at hname
  obtain ⟨hnames, hrest⟩ := Prod.mk.inj (Option.some.inj hname)
  have hargument := Text.splitOnce_append hpclose after
  rw [← hrest, Text.splitOnce_append hqclose] at hargument
  obtain ⟨harguments, -⟩ := Prod.mk.inj (Option.some.inj hargument)
  obtain ⟨before, name, argument⟩ := p
  obtain ⟨before', name', argument'⟩ := q
  obtain rfl : name' = name := hnames
  obtain rfl : argument' = argument := harguments
  obtain rfl : before = before' := hbefore
  rfl

end ArgumentPlace

/-- The command with one of the names at the beginning of the text. -/
def argumentPlaceAt? (names : List Text) (t : Text) : Option ArgumentPlace :=
  names.findSome? fun name =>
    ((Text.removePrefix? ('\\' :: (name ++ ['{'])) t).bind argumentRest?).map (⟨[], name, ·⟩)

/-- The places of all commands with one of the names that have an argument. -/
def argumentPlaces (names : List Text) : Text → List ArgumentPlace
  | [] => []
  | c :: r =>
    (argumentPlaceAt? names (c :: r)).toList ++ (argumentPlaces names r).map (.behind c)

theorem argumentAt?_eq (names : List Text) (t : Text) :
    argumentAt? names t = (argumentPlaceAt? names t).map ArgumentPlace.argument := by
  unfold argumentAt? argumentPlaceAt?
  rw [List.map_findSome?]
  congr
  funext name
  simp [Function.comp_def]

/-- The places are those of the arguments. -/
theorem map_argument_argumentPlaces (names : List Text) (t : Text) :
    (argumentPlaces names t).map ArgumentPlace.argument = arguments names t := by
  induction t with
  | nil => rfl
  | cons c r ih =>
    rw [argumentPlaces, arguments, List.map_append, List.map_map, argumentAt?_eq, ← ih]
    cases argumentPlaceAt? names (c :: r) <;> rfl

/-! ## Membership -/

/-- A name is found where its command is written. -/
theorem removePrefix?_bind_eq_some_iff {name : Text} :
    ((Text.removePrefix? ('\\' :: (name ++ ['{'])) t).bind argumentRest?) = some a ↔
      ArgumentPlace.StandsIn ⟨[], name, a⟩ t := by
  rw [Option.bind_eq_some_iff]
  simp only [Text.removePrefix?_eq_some]
  constructor
  · rintro ⟨r, rfl, hr⟩
    obtain ⟨⟨after, rfl⟩, hopen, hclose⟩ := argumentRest?_eq_some hr
    exact ⟨hopen, hclose, after, by simp [ArgumentPlace.command]⟩
  · rintro ⟨hopen, hclose, after, rfl⟩
    exact ⟨a ++ '}' :: after, by simp [ArgumentPlace.command], argumentRest?_split hopen hclose after⟩

theorem standsIn_of_argumentPlaceAt? (h : argumentPlaceAt? names t = some p) :
    p.name ∈ names ∧ p.before = [] ∧ p.StandsIn t := by
  obtain ⟨name, hname, hfound⟩ := List.exists_of_findSome?_eq_some h
  obtain ⟨a, ha, rfl⟩ := Option.map_eq_some_iff.1 hfound
  exact ⟨hname, rfl, removePrefix?_bind_eq_some_iff.1 ha⟩

/-- At the beginning of a text stands at most one of the commands. -/
theorem argumentPlaceAt?_eq_some_iff (hnames : ∀ name ∈ names, '{' ∉ name) :
    argumentPlaceAt? names t = some p ↔ p.name ∈ names ∧ p.before = [] ∧ p.StandsIn t := by
  refine ⟨standsIn_of_argumentPlaceAt?, ?_⟩
  rintro ⟨hname, hbefore, hp⟩
  have hhere : ArgumentPlace.StandsIn ⟨[], p.name, p.argument⟩ t := by
    rw [← hbefore]
    exact hp
  have hsome : (argumentPlaceAt? names t).isSome = true := by
    rw [argumentPlaceAt?, List.findSome?_isSome_iff]
    exact ⟨p.name, hname, by rw [removePrefix?_bind_eq_some_iff.2 hhere]; rfl⟩
  obtain ⟨q, hq⟩ := Option.isSome_iff_exists.1 hsome
  obtain ⟨hqname, hqbefore, hqstands⟩ := standsIn_of_argumentPlaceAt? hq
  rw [hq, hqstands.unique hp (hqbefore.trans hbefore.symm) (hnames _ hqname) (hnames _ hname)]

/-- **The places are those where one of the commands is written.** -/
theorem mem_argumentPlaces_iff (hnames : ∀ name ∈ names, '{' ∉ name) :
    p ∈ argumentPlaces names t ↔ p.name ∈ names ∧ p.StandsIn t := by
  induction t generalizing p with
  | nil =>
    refine ⟨fun h => absurd h List.not_mem_nil, ?_⟩
    rintro ⟨-, -, -, after, h⟩
    simp [ArgumentPlace.command] at h
  | cons c r ih =>
    rw [argumentPlaces, List.mem_append, Option.mem_toList, argumentPlaceAt?_eq_some_iff hnames,
      List.mem_map]
    constructor
    · rintro (⟨hname, -, hp⟩ | ⟨q, hq, rfl⟩)
      · exact ⟨hname, hp⟩
      · obtain ⟨hname, hopen, hclose, after, rfl⟩ := ih.1 hq
        exact ⟨hname, hopen, hclose, after, rfl⟩
    · rintro ⟨hname, hp⟩
      obtain ⟨before, name, argument⟩ := p
      cases before with
      | nil => exact .inl ⟨hname, rfl, hp⟩
      | cons x before =>
        obtain ⟨hopen, hclose, after, hsplit⟩ := hp
        obtain ⟨rfl, hr⟩ := List.cons.inj hsplit
        exact .inr ⟨⟨before, name, argument⟩, ih.2 ⟨hname, hopen, hclose, after, hr⟩, rfl⟩

/-- Arguments are found from the left to the right. -/
theorem pairwise_argumentPlaces (names : List Text) (t : Text) :
    (argumentPlaces names t).Pairwise fun p q => p.before.length < q.before.length := by
  induction t with
  | nil => exact .nil
  | cons c r ih =>
    rw [argumentPlaces]
    have hlater : ((argumentPlaces names r).map (ArgumentPlace.behind c)).Pairwise
        fun p q => p.before.length < q.before.length :=
      List.pairwise_map.2 (ih.imp fun h => Nat.succ_lt_succ h)
    cases hhere : argumentPlaceAt? names (c :: r) with
    | none => exact hlater
    | some p =>
      refine List.pairwise_cons.2 ⟨fun q hq => ?_, hlater⟩
      obtain ⟨q, -, rfl⟩ := List.mem_map.1 hq
      rw [(standsIn_of_argumentPlaceAt? hhere).2.1]
      exact Nat.zero_lt_succ _

/-! ## Commands and groups -/

/-- **A command starts at the place exactly if the backslashes before it come in pairs.** -/
theorem isCommand_iff_even (hcommand : IsCommand p.command) (hp : p.StandsIn t) :
    (p.before, p.command) ∈ commandPlaces t ↔ Even (endingBackslashes p.before) := by
  obtain ⟨-, -, after, hsplit⟩ := hp
  rw [mem_commandPlaces_iff]
  constructor
  · rintro ⟨_, -, -, -, heven⟩
    exact heven
  · intro heven
    exact ⟨_, hsplit, hcommand, endsRun_cons.2 (by decide), heven⟩

/-- A text without braces is balanced unless a backslash at its end escapes what follows. -/
theorem balanced_iff_even (hopen : '{' ∉ a) (hclose : '}' ∉ a) :
    Balanced a ↔ Even (endingBackslashes a) := by
  constructor
  · intro h
    induction h with
    | nil => exact Even.zero
    | plain hescape _ _ _ ih =>
      rw [List.mem_cons, not_or] at hopen hclose
      rw [endingBackslashes_cons_of_ne hescape]
      exact ih hopen.2 hclose.2
    | escaped c _ ih =>
      simp only [List.mem_cons, not_or] at hopen hclose
      exact (even_endingBackslashes_escape c _).2 (ih hopen.2.2 hclose.2.2)
    | group => exact absurd List.mem_cons_self hopen
  · intro h
    fun_induction commandPlaces a with
    | case1 c r ih =>
      simp only [List.mem_cons, not_or] at hopen hclose
      exact .escaped c (ih hopen.2.2 hclose.2.2 ((even_endingBackslashes_escape c r).1 h))
    | case2 c r hescape ih =>
      rw [List.mem_cons, not_or] at hopen hclose
      have hc : c ≠ '\\' := ne_backslash_of_even hescape h
      rw [endingBackslashes_cons_of_ne hc] at h
      exact .plain hc (Ne.symm hopen.1) (Ne.symm hclose.1) (ih hopen.2 hclose.2 h)
    | case3 => exact .nil

/-- What follows the command at a place is a group with the argument. -/
def ArgumentPlace.HasGroup (p : ArgumentPlace) (t : Text) : Prop :=
  ∃ after, braceGroup? (t.drop (p.before ++ p.command).length) = some (p.argument, after)

/-- **The argument in its braces is a group exactly if the backslashes at its end come in pairs.** -/
theorem isGroup_iff_even (hp : p.StandsIn t) :
    p.HasGroup t ↔ Even (endingBackslashes p.argument) := by
  obtain ⟨hopen, hclose, after, rfl⟩ := hp
  rw [← balanced_iff_even hopen hclose, ArgumentPlace.HasGroup, ← List.append_assoc, List.drop_left]
  constructor
  · rintro ⟨rest, hgroup⟩
    exact (braceGroup?_eq_some_iff.1 hgroup).2
  · intro h
    exact ⟨after, braceGroup?_of_balanced h after⟩

end TexSymbols

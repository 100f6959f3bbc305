import TexSymbols.Proofs.Catalogue.Comparison
import TexSymbols.Proofs.Catalogue.Extension
import TexSymbols.Proofs.Reader.Concatenation

/-!
# Reading one text behind another

A text that begins with a section can be read behind another one in two ways: both in turn, or as
one text.

* `AlikeFrom` — lists that are related in two ways, up to a place and behind it; `OrderedMap.Rel` —
  maps with related values at the same keys.
* `Catalogue.Moved` — catalogues that differ in locations only: what was known at some time is where
  it was, in a file of any name, and what came later is further down.
* `congruence_moved` — readers of texts that are moved keep them so.
* `Catalogue.readInTurn` — reads two texts in turn; `Catalogue.read_append` — this is reading one
  behind the other.
-/

namespace TexSymbols

open ItemGroup

/-! ## Lists -/

section Lists

variable {α : Type} {R S : α → α → Prop} {l l' new new' : List α} {i : Nat}

/-- The first `i` elements are related by `R` and the others by `S`. -/
structure AlikeFrom (i : Nat) (R S : α → α → Prop) (l l' : List α) : Prop where
  before : List.Forall₂ R (l.take i) (l'.take i)
  behind : List.Forall₂ S (l.drop i) (l'.drop i)

theorem AlikeFrom.forall₂ (h : AlikeFrom i R R l l') : List.Forall₂ R l l' := by
  rw [← List.take_append_drop i l, ← List.take_append_drop i l']
  exact List.rel_append h.before h.behind

theorem AlikeFrom.of_append (h : List.Forall₂ R l l') (hnew : List.Forall₂ S new new') :
    AlikeFrom l.length R S (l ++ new) (l' ++ new') := by
  have hlength : l.length = l'.length := h.length_eq
  refine ⟨?_, ?_⟩
  · rw [List.take_left, hlength, List.take_left]
    exact h
  · rw [List.drop_left, hlength, List.drop_left]
    exact hnew

theorem AlikeFrom.of_forall₂ (h : List.Forall₂ R l l') : AlikeFrom l.length R S l l' := by
  have happend := AlikeFrom.of_append (S := S) h .nil
  rwa [List.append_nil, List.append_nil] at happend

theorem AlikeFrom.length_eq (h : AlikeFrom i R S l l') : l.length = l'.length := by
  rw [← List.take_append_drop i l, ← List.take_append_drop i l', List.length_append,
    List.length_append, h.before.length_eq, h.behind.length_eq]

theorem AlikeFrom.append (h : AlikeFrom i R S l l') (hi : i ≤ l.length)
    (hnew : List.Forall₂ S new new') : AlikeFrom i R S (l ++ new) (l' ++ new') := by
  have hi' : i ≤ l'.length := h.length_eq ▸ hi
  refine ⟨?_, ?_⟩
  · rw [List.take_append_of_le_length hi, List.take_append_of_le_length hi']
    exact h.before
  · rw [List.drop_append_of_le_length hi, List.drop_append_of_le_length hi']
    exact List.rel_append h.behind hnew

end Lists

/-! ## Maps -/

namespace OrderedMap

variable {κ ν : Type} {R S : κ → ν → ν → Prop} {m m' : OrderedMap κ ν} {k : κ}

/-- The same keys in the same order, with values that `R` relates. -/
def Rel (R : κ → ν → ν → Prop) (m m' : OrderedMap κ ν) : Prop :=
  List.Forall₂ (fun e e' => e'.1 = e.1 ∧ R e.1 e.2 e'.2) m.entries m'.entries

theorem Rel.refl (hR : ∀ k v, R k v v) (m : OrderedMap κ ν) : m.Rel R m :=
  List.forall₂_same.2 fun e _ => ⟨rfl, hR e.1 e.2⟩

theorem Rel.keys_eq (h : m.Rel R m') : m'.keys = m.keys := by
  rw [keys, keys]
  unfold Rel at h
  generalize m.entries = l at h
  generalize m'.entries = l' at h
  induction h with
  | nil => rfl
  | cons he _ ih => rw [List.map_cons, List.map_cons, he.1, ih]

theorem Rel.mono (h : m.Rel R m')
    (hRS : ∀ k v v', (k, v) ∈ m.entries → R k v v' → S k v v') : m.Rel S m' := by
  unfold Rel at h ⊢
  generalize m.entries = l at h hRS
  generalize m'.entries = l' at h
  induction h with
  | nil => exact .nil
  | cons he _ ih =>
    exact .cons ⟨he.1, hRS _ _ _ List.mem_cons_self he.2⟩
      (ih fun k v v' hmem => hRS k v v' (List.mem_cons_of_mem _ hmem))

variable [DecidableEq κ]

theorem Rel.find? (h : m.Rel R m') (k : κ) : Option.Rel (R k) (m.find? k) (m'.find? k) := by
  rw [OrderedMap.find?, OrderedMap.find?]
  unfold Rel at h
  generalize m.entries = l at h
  generalize m'.entries = l' at h
  induction h with
  | nil => exact .none
  | @cons e e' l l' he _ ih =>
    obtain ⟨hkey, hvalue⟩ := he
    rw [List.find?_cons, List.find?_cons, hkey]
    by_cases hk : e.1 = k
    · subst hk
      simpa using Option.Rel.some hvalue
    · simpa [hk] using ih

theorem Rel.insert (h : m.Rel R m') (hk : k ∉ m.keys) {v v' : ν} (hv : R k v v') :
    (m.insert k v).Rel R (m'.insert k v') := by
  have hk' : k ∉ m'.keys := h.keys_eq ▸ hk
  rw [Rel, entries_insert_of_notMem hk, entries_insert_of_notMem hk']
  exact List.rel_append h (.cons ⟨rfl, hv⟩ .nil)

theorem Rel.modify (h : m.Rel R m') (k : κ) {f f' : ν → ν}
    (hf : ∀ v v', R k v v' → R k (f v) (f' v')) : (m.modify k f).Rel R (m'.modify k f') := by
  rw [Rel, entries_modify, entries_modify, List.forall₂_map_left_iff, List.forall₂_map_right_iff]
  refine h.imp ?_
  rintro ⟨j, v⟩ ⟨j', v'⟩ ⟨rfl, hv⟩
  refine ⟨rfl, ?_⟩
  by_cases hj : j' = k
  · subst hj
    simpa using hf v v' hv
  · simpa [hj] using hv

end OrderedMap

/-! ## Catalogues -/

structure Section.Alike (R : Location → Location → Prop) (o o' : Section) : Prop where
  name_eq : o'.name = o.name
  order_eq : o'.order = o.order
  declaration : Option.Rel (Declaration.Alike R) o.declaration o'.declaration
  symbols_eq : o'.symbols = o.symbols
  subs_eq : o'.subs = o.subs

theorem Section.Alike.refl {R : Location → Location → Prop} (hR : ∀ l, R l l) (o : Section) :
    o.Alike R o where
  name_eq := rfl
  order_eq := rfl
  declaration := by
    cases o.declaration with
    | some d => exact .some (.mk (hR _))
    | none => exact .none
  symbols_eq := rfl
  subs_eq := rfl

structure Symbol.Alike (R : Location → Location → Prop) (s s' : Symbol) : Prop where
  toDefinition_eq : s'.toDefinition = s.toDefinition
  synonyms_eq : s'.synonyms = s.synonyms
  owner_eq : s'.owner = s.owner
  sample_eq : s'.sample = s.sample
  nomenclature_eq : s'.nomenclature = s.nomenclature
  attributes_eq : s'.attributes = s.attributes
  loc : R s.loc s'.loc
  order_eq : s'.order = s.order

namespace Catalogue

variable {b c c' q q' : Catalogue} {n : Nat} {name : Text} {d d' : Declaration} {s s' : Symbol}

/-- The line of a declaration: as in `b` if it is there, otherwise `n` lines further down. -/
def sectionMoved (b : Catalogue) (n : Nat) (name : Text) : Location → Location → Prop :=
  Location.Moved (if (b.declaration? name).isSome then 0 else n)

/-- The line of a symbol: as in `b` if it is there, otherwise `n` lines further down. -/
def symbolMoved (b : Catalogue) (n : Nat) (command : Text) : Location → Location → Prop :=
  Location.Moved (if b.symbols.contains command then 0 else n)

/-- Catalogues that are the same but for the locations of what is not in `b`, which are `n` lines
further down in the second one, and for the names of files. -/
structure Moved (b : Catalogue) (n : Nat) (c c' : Catalogue) : Prop where
  knownTags_eq : c'.knownTags = c.knownTags
  nextOrder_eq : c'.nextOrder = c.nextOrder
  sections : c.sections.Rel (fun name => Section.Alike (b.sectionMoved n name)) c'.sections
  symbols : c.symbols.Rel (fun command => Symbol.Alike (b.symbolMoved n command)) c'.symbols
  warnings : AlikeFrom b.warnings.length (Warning.Alike (Location.Moved 0))
    (Warning.Alike (Location.Moved n)) c.warnings c'.warnings

theorem Moved.declaration? (h : b.Moved n c c') (name : Text) :
    Option.Rel (Declaration.Alike (b.sectionMoved n name)) (c.declaration? name)
      (c'.declaration? name) :=
  optionRel_bind (h.sections.find? name) fun _ _ ho => ho.declaration

/-- What comes last is moved. -/
theorem Moved.warn (h : b.Moved n c c') (hb : b.warnings.length ≤ c.warnings.length)
    {ws ws' : List Warning} (hws : List.Forall₂ (Warning.Alike (Location.Moved n)) ws ws') :
    b.Moved n (c.warn ws) (c'.warn ws') :=
  { h with warnings := h.warnings.append hb hws }

theorem Moved.declare (h : b.Moved n c c') (hb : b.declaration? name = none)
    (hd : d.Alike (Location.Moved n) d') (hq : c.declare name d = .ok q)
    (hq' : c'.declare name d' = .ok q') : b.Moved n q q' := by
  have hmoved : b.sectionMoved n name = Location.Moved n := by
    rw [sectionMoved, hb]
    rfl
  have hdeclared : Option.Rel (Declaration.Alike (b.sectionMoved n name)) (some d) (some d') :=
    .some (hmoved ▸ hd)
  have hsection := h.sections.find? name
  generalize hfind : c.sections.find? name = o at hsection
  generalize hfind' : c'.sections.find? name = o' at hsection
  cases hsection with
  | none =>
    have hnew := OrderedMap.find?_eq_none.1 hfind
    rw [declare_of_notMem hnew] at hq
    rw [declare_of_notMem (OrderedMap.find?_eq_none.1 hfind')] at hq'
    cases hq
    cases hq'
    refine { h with
      nextOrder_eq := congrArg (· + 1) h.nextOrder_eq
      sections := h.sections.insert hnew ⟨rfl, h.nextOrder_eq, hdeclared, rfl, rfl⟩ }
  | @some o o' ho =>
    -- a section that is declared would be refused
    have hnone : o.declaration = none := by
      have hfree := (declare_eq_ok hq).1
      rwa [Catalogue.declaration?, hfind] at hfree
    have hnone' : o'.declaration = none := by
      have hfree := (declare_eq_ok hq').1
      rwa [Catalogue.declaration?, hfind'] at hfree
    rw [declare_of_reserved hfind hnone] at hq
    rw [declare_of_reserved hfind' hnone'] at hq'
    cases hq
    cases hq'
    refine { h with
      sections := h.sections.modify name fun _ _ ho => { ho with declaration := hdeclared } }

theorem Moved.register (h : b.Moved n c c') (hb : s.command ∉ b.symbols.keys)
    (hnew : s.command ∉ c.symbols.keys) (hs : s.Alike (Location.Moved n) s') :
    b.Moved n (c.register s) (c'.register s') := by
  have hmoved : b.symbolMoved n s.command = Location.Moved n := by
    rw [symbolMoved, if_neg (by simpa using hb)]
  have hcommand : s'.command = s.command := congrArg Definition.command hs.toDefinition_eq
  have hadded : s.Alike (b.symbolMoved n s.command) s' := hmoved ▸ hs
  refine { h with
    nextOrder_eq := congrArg (· + 1) h.nextOrder_eq
    sections := ?_
    symbols := ?_ }
  · rw [Catalogue.register, Catalogue.register, hs.owner_eq, hcommand]
    refine h.sections.modify s.owner fun _ _ ho => { ho with symbols_eq := ?_ }
    exact congrArg (· ++ [s.command]) ho.symbols_eq
  · rw [Catalogue.register, Catalogue.register, hcommand]
    exact h.symbols.insert hnew hadded

end Catalogue

/-! ## Readers -/

/-- Two progresses that come from catalogues like `b`, by reading a text and the same text `n` lines
further down. -/
structure Progress.Moved (b : Catalogue) (n : Nat) (p p' : Progress) : Prop where
  current_eq : p'.current = p.current
  moved : b.Moved n p.catalogue p'.catalogue
  extended : b.Extends Section.Keeps p.catalogue

/-- **A reader of a text that is moved keeps everything moved.** -/
theorem congruence_moved (b : Catalogue) (n : Nat) :
    Congruence (Location.Moved n) (b.sectionMoved n) (b.symbolMoved n) (Progress.Moved b n) where
  current_eq h := h.current_eq
  declaration h name := h.moved.declaration? name
  symbol h command := optionRel_imp (h.moved.symbols.find? command) fun _ _ _ hs => hs.loc
  warn h hws := ⟨h.current_eq, h.moved.warn h.extended.warnings_prefix.length_le hws,
    h.extended.trans (Catalogue.extends_warn ..).toKeeps⟩
  run {p p' run run'} h hrun := by
    rw [h.moved.knownTags_eq]
    exact ⟨h.current_eq,
      h.moved.warn h.extended.warnings_prefix.length_le (runWarnings_alike hrun _),
      h.extended.trans (Catalogue.extends_warn ..).toKeeps⟩
  declare {p p' name d d' c c'} h hd hc hc' := by
    have hfree : b.declaration? name = none := by
      cases hdeclared : b.declaration? name with
      | none => rfl
      | some earlier =>
        have hkept := h.extended.declaration? hdeclared
        rw [(Catalogue.declare_eq_ok hc).1] at hkept
        cases hkept
    exact ⟨rfl, h.moved.declare hfree hd hc hc',
      h.extended.trans (Catalogue.extends_declare hc).toKeeps⟩
  register {p p' owner l l' d own nomenclature} h hl _ hnew _ := by
    have hnew' : d.command ∉ p.catalogue.symbols.keys := OrderedMap.find?_eq_none.1 hnew
    have hfree : d.command ∉ b.symbols.keys := fun hmem =>
      hnew' ((h.extended.symbols_prefix.map Prod.fst).subset hmem)
    have hinherited := Catalogue.inherited_alike (h.moved.declaration? owner)
    have hsymbol : (p.symbol owner d l own nomenclature).Alike (Location.Moved n)
        (p'.symbol owner d l' own nomenclature) :=
      ⟨rfl, rfl, rfl, rfl, rfl, congrArg (·.inherit own) hinherited, hl, h.moved.nextOrder_eq⟩
    exact ⟨h.current_eq, h.moved.register hfree hnew' hsymbol,
      h.extended.trans (Catalogue.extends_register hnew).toKeeps⟩
  finish h := ⟨rfl, h.moved, h.extended⟩

namespace Catalogue

variable {b c c₁ c₁' : Catalogue} {n : Nat}

theorem sectionMoved_zero (b : Catalogue) :
    b.sectionMoved 0 = fun _ => Location.Moved 0 := by
  funext name
  rw [sectionMoved, ite_self]

theorem symbolMoved_zero (b : Catalogue) : b.symbolMoved 0 = fun _ => Location.Moved 0 := by
  funext command
  rw [symbolMoved, ite_self]

/-- A catalogue is where it is. -/
theorem moved_self (c : Catalogue) : c.Moved 0 c c where
  knownTags_eq := rfl
  nextOrder_eq := rfl
  sections := OrderedMap.Rel.refl (fun name o => by
    rw [sectionMoved_zero]
    exact .refl (fun l => ⟨rfl, rfl⟩) o) _
  symbols := OrderedMap.Rel.refl (fun command s => by
    rw [symbolMoved_zero]
    exact ⟨rfl, rfl, rfl, rfl, rfl, rfl, ⟨rfl, rfl⟩, rfl⟩) _
  warnings := AlikeFrom.of_forall₂ (List.forall₂_same.2 fun w _ => w.alike_self fun l => ⟨rfl, rfl⟩)

/-- What was not moved by reading a text is where it was, whatever comes next. -/
theorem Moved.rebase (h : c.Moved 0 c₁ c₁') (n : Nat) : c₁.Moved n c₁ c₁' where
  knownTags_eq := h.knownTags_eq
  nextOrder_eq := h.nextOrder_eq
  sections := by
    refine h.sections.mono fun name o o' ho halike => ?_
    rw [sectionMoved_zero] at halike
    refine { halike with declaration := optionRel_imp halike.declaration fun d hd _ hmoved => ?_ }
    have hdeclared : c₁.declaration? name = some d := by
      rw [Catalogue.declaration?, OrderedMap.find?_eq_some_iff.2 ho, Option.bind_some, hd]
    rw [sectionMoved, hdeclared]
    exact hmoved
  symbols := by
    refine h.symbols.mono fun command s s' hs halike => ?_
    have hknown : c₁.symbols.contains command = true :=
      OrderedMap.contains_iff.2 (OrderedMap.mem_keys.2 ⟨s, hs⟩)
    rw [symbolMoved, if_pos hknown]
    rwa [symbolMoved_zero] at halike
  warnings := .of_forall₂ h.warnings.forall₂

end Catalogue

/-! ## The first group behind the seam -/

/-- What a section tag makes of a catalogue does not depend on the section before it. -/
theorem Progress.readSection_current (c : Catalogue) (current current' : Option Text) (b : Block)
    (run : List Block) :
    (readSection ⟨c, current'⟩ b run).1 = (readSection ⟨c, current⟩ b run).1 ∧
      (readSection ⟨c, current'⟩ b run).2.catalogue =
        (readSection ⟨c, current⟩ b run).2.catalogue ∧
      ((readSection ⟨c, current⟩ b run).1 = none →
        (readSection ⟨c, current'⟩ b run).2 = (readSection ⟨c, current⟩ b run).2) := by
  simp only [readSection]
  split
  · exact ⟨rfl, rfl, fun h => by cases h⟩
  · simp only [warn]
    split
    · exact ⟨rfl, rfl, fun h => by cases h⟩
    · exact ⟨rfl, rfl, fun _ => rfl⟩

/-- So groups that begin with a section tag are read the same from there. -/
theorem Progress.take_current {g : ItemGroup} {b : Block} (hg : g.first = b.item)
    (hb : b.tag = Tag.declares) (c : Catalogue) (current current' : Option Text)
    (groups : List ItemGroup) (n : Nat) :
    (take (g :: groups) n ⟨c, current'⟩).events = (take (g :: groups) n ⟨c, current⟩).events ∧
      (take (g :: groups) n ⟨c, current'⟩).error = (take (g :: groups) n ⟨c, current⟩).error ∧
      (take (g :: groups) n ⟨c, current'⟩).progress.catalogue =
        (take (g :: groups) n ⟨c, current⟩).progress.catalogue := by
  have hread : ∀ p : Progress, g.read p = p.readSection b g.run := by
    intro p
    rw [ItemGroup.read, hg, Block.item]
    exact if_pos hb
  obtain ⟨herror, hcatalogue, hprogress⟩ :=
    readSection_current c current current' b g.run
  rw [← hread, ← hread] at herror hcatalogue hprogress
  cases n with
  | zero =>
    rw [take_zero, take_zero]
    exact ⟨rfl, rfl, rfl⟩
  | succ n =>
    rcases hq : g.read ⟨c, current⟩ with ⟨_ | e, q⟩ <;>
      rcases hq' : g.read ⟨c, current'⟩ with ⟨_ | e', q'⟩ <;>
      rw [hq, hq'] at herror hcatalogue hprogress
    · have hsame : q' = q := hprogress rfl
      rw [take_cons_of_ok hq, take_cons_of_ok hq', hsame]
      exact ⟨rfl, rfl, rfl⟩
    · cases herror
    · cases herror
    · rw [take_cons_of_error hq, take_cons_of_error hq']
      exact ⟨rfl, herror, hcatalogue⟩

/-! ## Two texts -/

/-- A reading from `c` gives what a transcript says, but `n` lines further up. -/
structure Reading.AlikeBelow (c : Catalogue) (n : Nat) (t : Reading) (s : Transcript) : Prop where
  events : List.Forall₂ (Event.Alike (Location.Moved n)) t.events s.events
  error : Option.Rel (ReadError.Alike (Location.Moved n) (c.sectionMoved n) (c.symbolMoved n))
    t.error s.error
  catalogue : c.Moved n t.reader.catalogue s.progress.catalogue

/-- A reading and another one that differ as follows: what comes after what `first` gives is `n`
lines further down in the second one, and the names of files may be others. -/
structure Reading.MovedFrom (first : Reading) (n : Nat) (t t' : Reading) : Prop where
  events : AlikeFrom first.events.length (Event.Alike (Location.Moved 0))
    (Event.Alike (Location.Moved n)) t.events t'.events
  /-- An earlier section or symbol that an error names may be one of the first text. -/
  error : Option.Rel (ReadError.Alike (Location.Moved n)
    (first.reader.catalogue.sectionMoved n) (first.reader.catalogue.symbolMoved n)) t.error t'.error
  catalogue : first.reader.catalogue.Moved n t.reader.catalogue t'.reader.catalogue

namespace Catalogue

/-- Read a text and then, if this did not fail, another one. -/
def readInTurn (c : Catalogue) (fileA a fileB b : Text) : Reading :=
  let first := c.read fileA a none
  match first.error with
  | some _ => first
  | none =>
    let second := first.reader.catalogue.read fileB b none
    { second with events := first.events ++ second.events }

/-- What reading a text gives that stands below `n` lines of its file. -/
def transcriptBelow (c : Catalogue) (file : Text) (n : Nat) (text : Text) : Transcript :=
  Progress.take (ofItems (Token.streamFrom file n (Text.lines text)))
    ((Token.streamFrom file n (Text.lines text)).length + 1) ⟨c, none⟩

/-- Any number of pulls that is large enough gives the same. -/
theorem transcriptBelow_eq_take (c : Catalogue) (file : Text) (n : Nat) (text : Text) {pulls : Nat}
    (h : (ofItems (Token.streamFrom file n (Text.lines text))).length < pulls) :
    c.transcriptBelow file n text =
      Progress.take (ofItems (Token.streamFrom file n (Text.lines text))) pulls ⟨c, none⟩ :=
  Progress.take_eq_of_lt (Nat.lt_succ_of_le (length_ofItems_le _)) h

/-- **A text that is moved is read alike.** -/
theorem alikeBelow_read {c c' : Catalogue} {n : Nat} (h : c.Moved n c c') (file file' text : Text) :
    (c.read file text none).AlikeBelow c n (c'.transcriptBelow file' n text) := by
  have hmatches := c.matches_transcript file text none
  have hitems := Token.streamFrom_moved file file' 0 n (Text.lines text)
  rw [Nat.zero_add] at hitems
  have halike : (c.transcript file text none).Alike (Location.Moved n) (c.sectionMoved n)
      (c.symbolMoved n) (Progress.Moved c n) (c'.transcriptBelow file' n text) := by
    have hstart : Progress.Moved c n ⟨c, none⟩ ⟨c', none⟩ := ⟨rfl, h, .refl c⟩
    rw [transcriptBelow, ← hitems.length_eq]
    exact (congruence_moved c n).take hstart (ofItems_alike hitems) _
  refine ⟨?_, ?_, ?_⟩
  · rw [hmatches.events_eq]
    exact halike.events
  · rw [hmatches.error_eq]
    exact halike.error
  · rw [hmatches.catalogue_eq]
    exact halike.progress.moved

section Seam

variable {c : Catalogue} {file a b : Text}

/-- If the first text fails, the second one is not read. -/
theorem transcriptBelow_append_of_error (ha : a = [] ∨ a.getLast? = some '\n')
    (hb : BeginsSection b) {e : ReadError} (h : (c.transcriptBelow file 0 a).error = some e) :
    c.transcriptBelow file 0 (a ++ b) = c.transcriptBelow file 0 a := by
  have hgroups := groups_append file ha hb
  generalize hfirst : ofItems (Token.streamFrom file 0 (Text.lines a)) = first at hgroups
  generalize ofItems (Token.streamFrom file _ (Text.lines b)) = later at hgroups
  have hlt : first.length < (first ++ later).length + 1 := by
    rw [List.length_append]
    omega
  rw [transcriptBelow_eq_take c file 0 (a ++ b) (Nat.lt_succ_self _), hgroups]
  rw [transcriptBelow_eq_take c file 0 a (hfirst ▸ hlt), hfirst] at h ⊢
  exact Progress.take_append_of_error h later

/-- Otherwise it is read from the catalogue that the first one leaves, and with no section before
it. -/
theorem transcriptBelow_append_of_ok (ha : a = [] ∨ a.getLast? = some '\n')
    (hb : BeginsSection b) (h : (c.transcriptBelow file 0 a).error = none) {second : Transcript}
    (hsecond : (c.transcriptBelow file 0 a).progress.catalogue.transcriptBelow file
      (Text.lines a).length b = second) :
    (c.transcriptBelow file 0 (a ++ b)).events =
        (c.transcriptBelow file 0 a).events ++ second.events ∧
      (c.transcriptBelow file 0 (a ++ b)).error = second.error ∧
      (c.transcriptBelow file 0 (a ++ b)).progress.catalogue = second.progress.catalogue := by
  have hgroups := groups_append file ha hb
  obtain ⟨head, g, groups, htag, hg, hsplit⟩ := hb.exists_groups file (Text.lines a).length
  generalize hfirst : ofItems (Token.streamFrom file 0 (Text.lines a)) = first at hgroups
  generalize hlater : ofItems (Token.streamFrom file _ (Text.lines b)) = later at hgroups hsplit
  -- pulls enough for all groups, and after those of the first text for the others
  have hlt : first.length < (first ++ later).length + 1 := by
    rw [List.length_append]
    omega
  have hevents := Progress.length_events_take_le first ((first ++ later).length + 1) ⟨c, none⟩
  have hmore : later.length < (first ++ later).length + 1 -
      (Progress.take first ((first ++ later).length + 1) ⟨c, none⟩).events.length := by
    rw [List.length_append] at hevents ⊢
    omega
  rw [← hsecond]
  rw [transcriptBelow_eq_take c file 0 (a ++ b) (Nat.lt_succ_self _), hgroups]
  rw [transcriptBelow_eq_take c file 0 a (hfirst ▸ hlt), hfirst] at h ⊢
  rw [Progress.take_append_of_ok hlt h]
  generalize Progress.take first ((first ++ later).length + 1) ⟨c, none⟩ = s at hmore ⊢
  rw [transcriptBelow_eq_take _ file _ b (hlater ▸ hmore), hlater, hsplit]
  obtain ⟨hevents, herror, hcatalogue⟩ := Progress.take_current hg htag s.progress.catalogue none
    s.progress.current groups ((first ++ g :: groups).length + 1 - s.events.length)
  exact ⟨congrArg (s.events ++ ·) hevents, herror, hcatalogue⟩

end Seam

/-- If the first text fails, this is all that is read. -/
theorem movedFrom_self {c : Catalogue} {t t' : Reading} {s : Transcript} (h : t.AlikeBelow c 0 s)
    (ht' : t'.Matches s) : t.MovedFrom 0 t t' := by
  refine ⟨.of_forall₂ ?_, ?_, ?_⟩
  · rw [ht'.events_eq]
    exact h.events
  · have herror := h.error
    rw [sectionMoved_zero, symbolMoved_zero] at herror ⊢
    rwa [ht'.error_eq]
  · rw [ht'.catalogue_eq]
    exact h.catalogue.rebase 0

/-- **Reading two texts in turn is reading one behind the other**, if the first one ends with the
end of a line and the second one begins with a section. -/
theorem read_append (c : Catalogue) (fileA fileB file : Text) {a b : Text}
    (ha : a = [] ∨ a.getLast? = some '\n') (hb : BeginsSection b) :
    (c.read fileA a none).MovedFrom
      (if (c.read fileA a none).error.isSome then 0 else (Text.lines a).length)
      (c.readInTurn fileA a fileB b) (c.read file (a ++ b) none) := by
  have hfirst := alikeBelow_read c.moved_self fileA file a
  have hwhole : (c.read file (a ++ b) none).Matches (c.transcriptBelow file 0 (a ++ b)) :=
    c.matches_transcript file (a ++ b) none
  rw [readInTurn]
  generalize c.read fileA a none = first at hfirst ⊢
  have herror := hfirst.error
  cases hfails : first.error with
  | some e =>
    cases hfails' : (c.transcriptBelow file 0 a).error with
    | none => rw [hfails, hfails'] at herror; cases herror
    | some e' =>
      rw [transcriptBelow_append_of_error ha hb hfails'] at hwhole
      exact movedFrom_self hfirst hwhole
  | none =>
    cases hfails' : (c.transcriptBelow file 0 a).error with
    | some e' => rw [hfails, hfails'] at herror; cases herror
    | none =>
      obtain ⟨hevents, herror, hcatalogue⟩ := transcriptBelow_append_of_ok ha hb hfails' rfl
      have hmoved := hfirst.catalogue.rebase (Text.lines a).length
      have hsecond := alikeBelow_read hmoved fileB file b
      refine ⟨?_, ?_, ?_⟩
      · rw [hwhole.events_eq, hevents]
        exact .of_append hfirst.events hsecond.events
      · rw [hwhole.error_eq, herror]
        exact hsecond.error
      · rw [hwhole.catalogue_eq, hcatalogue]
        exact hsecond.catalogue

/-- A text that ends within a block of attributes. -/
def endsInBlock : Text :=
  "%:section: s: S\n\\newcommand\x7b\\a\x7d\x7b1\x7d\n%:sort: a\n% and more\n"

/-- A text that defines the same command again. -/
def definesAgain : Text := "%:section: t: T\n\\newcommand\x7b\\a\x7d\x7b2\x7d\n"

theorem beginsSection_definesAgain : BeginsSection definesAgain :=
  ⟨"%:section: t: T", ["\\newcommand\x7b\\a\x7d\x7b2\x7d"], "section: t: T", "section", " t: T",
    by decide, by decide, by decide, by decide⟩

/-- The error of the second text names the line of the first one; only its own line is moved. -/
theorem read_append_definesAgain :
    endsInBlock.getLast? = some '\n' ∧ BeginsSection definesAgain ∧
      ((new Tag.known).readInTurn "a" endsInBlock "b" definesAgain).error = some
        (.duplicateSymbol "\\a" ⟨"b", 2, "\\newcommand\x7b\\a\x7d\x7b2\x7d"⟩
          ⟨"a", 2, "\\newcommand\x7b\\a\x7d\x7b1\x7d"⟩) ∧
      ((new Tag.known).read "ab" (endsInBlock ++ definesAgain) none).error = some
        (.duplicateSymbol "\\a" ⟨"ab", 6, "\\newcommand\x7b\\a\x7d\x7b2\x7d"⟩
          ⟨"ab", 2, "\\newcommand\x7b\\a\x7d\x7b1\x7d"⟩) ∧
      ((new Tag.known).read "a" endsInBlock none).MovedFrom
        (if ((new Tag.known).read "a" endsInBlock none).error.isSome then 0
          else (Text.lines endsInBlock).length)
        ((new Tag.known).readInTurn "a" endsInBlock "b" definesAgain)
        ((new Tag.known).read "ab" (endsInBlock ++ definesAgain) none) :=
  ⟨by decide, beginsSection_definesAgain, by decide +kernel, by decide +kernel,
    read_append (new Tag.known) "a" "b" "ab" (.inr (by decide)) beginsSection_definesAgain⟩

end Catalogue

end TexSymbols

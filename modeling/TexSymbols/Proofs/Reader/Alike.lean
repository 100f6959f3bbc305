import Mathlib.Data.List.Forall2
import TexSymbols.Proofs.Reader.Progress

/-!
# The same but for locations

`R` relates the locations of what is read in one text to those of what is read in another one.

* `Block.Alike`, `Item.Alike`, `ItemGroup.Alike`, `Declaration.Alike`, `Event.Alike`,
  `Warning.Alike`, `ReadError.Alike` — two of a kind that differ in related locations only.
* `Block.alike_eq`, `Event.alike_eq` and others — equal locations make them equal.
* `attributesOf_alike`, `runWarnings_alike` — what runs of blocks alike give.
* `ofItems_alike` — items alike are grouped alike.
-/

namespace TexSymbols

open ItemGroup

variable {R : Location → Location → Prop}

/-! ## Options and lists -/

section Relations

variable {α β : Type}

theorem forall₂_toList {P : α → β → Prop} {a : Option α} {b : Option β} (h : Option.Rel P a b) :
    List.Forall₂ P a.toList b.toList := by
  cases h with
  | some hab => exact .cons hab .nil
  | none => exact .nil

theorem optionRel_of_map_eq {f : α → β} {a b : Option α} (h : b.map f = a.map f) :
    Option.Rel (fun x y => f x = f y) a b := by
  cases a <;> cases b
  · exact .none
  · cases h
  · cases h
  · exact .some (Option.some.inj h).symm

theorem optionRel_imp {P Q : α → β → Prop} {a : Option α} {b : Option β} (h : Option.Rel P a b)
    (hPQ : ∀ x ∈ a, ∀ y, P x y → Q x y) : Option.Rel Q a b := by
  cases h with
  | some hxy => exact .some (hPQ _ rfl _ hxy)
  | none => exact .none

theorem optionRel_bind {γ δ : Type} {P : α → β → Prop} {Q : γ → δ → Prop} {a : Option α}
    {b : Option β} {f : α → Option γ} {g : β → Option δ} (h : Option.Rel P a b)
    (hfg : ∀ x y, P x y → Option.Rel Q (f x) (g y)) : Option.Rel Q (a.bind f) (b.bind g) := by
  cases h with
  | some hxy => exact hfg _ _ hxy
  | none => exact .none

theorem eq_of_optionRel {P : α → α → Prop} (hP : ∀ {a b}, P a b → b = a) {a b : Option α}
    (h : Option.Rel P a b) : b = a := by
  cases h with
  | some hab => rw [hP hab]
  | none => rfl

theorem eq_of_forall₂ {P : α → α → Prop} (hP : ∀ {a b}, P a b → b = a) {l l' : List α}
    (h : List.Forall₂ P l l') : l' = l := by
  induction h with
  | nil => rfl
  | cons hab _ ih => rw [hP hab, ih]

end Relations

/-! ## What is read -/

inductive Block.Alike (R : Location → Location → Prop) : Block → Block → Prop
  | mk {tag : Text} {lines : List Text} {l l' : Location} :
    R l l' → Alike R ⟨tag, lines, l⟩ ⟨tag, lines, l'⟩

/-- The only error of a stream is a tag without an end. -/
inductive Item.Alike (R : Location → Location → Prop) : Item → Item → Prop
  | unterminated {l l' : Location} :
    R l l' → Alike R (.error (.unterminatedTag l)) (.error (.unterminatedTag l'))
  | definition {d : Definition} {l l' : Location} :
    R l l' → Alike R (.ok (.definition d l)) (.ok (.definition d l'))
  | block {b b' : Block} : b.Alike R b' → Alike R b.item b'.item
  | passthrough {line : Text} {l l' : Location} :
    R l l' → Alike R (.ok (.passthrough line l)) (.ok (.passthrough line l'))

structure ItemGroup.Alike (R : Location → Location → Prop) (g g' : ItemGroup) : Prop where
  first : g.first.Alike R g'.first
  run : List.Forall₂ (Block.Alike R) g.run g'.run

/-! ## What reading gives -/

inductive Declaration.Alike (R : Location → Location → Prop) : Declaration → Declaration → Prop
  | mk {description : Text} {attributes : Attributes} {l l' : Location} :
    R l l' → Alike R ⟨description, attributes, l⟩ ⟨description, attributes, l'⟩

inductive Event.Alike (R : Location → Location → Prop) : Event → Event → Prop
  | declared {name : Text} : Alike R (.declared name) (.declared name)
  | defined {command : Text} : Alike R (.defined command) (.defined command)
  | passthrough {line : Text} {l l' : Location} :
    R l l' → Alike R (.passthrough line l) (.passthrough line l')

inductive Warning.Alike (R : Location → Location → Prop) : Warning → Warning → Prop
  | unknownTag {tag : Text} {l l' : Location} :
    R l l' → Alike R (.unknownTag tag l) (.unknownTag tag l')
  | tagOverwritten {tag : Text} {l l' : Location} :
    R l l' → Alike R (.tagOverwritten tag l) (.tagOverwritten tag l')
  | floatingTag {tag : Text} {l l' : Location} :
    R l l' → Alike R (.floatingTag tag l) (.floatingTag tag l')
  | disagreement {command tag sectionValue symbolValue : Text} {l l' : Location} :
    R l l' → Alike R (.disagreement command tag sectionValue symbolValue l)
      (.disagreement command tag sectionValue symbolValue l')

/-- What an error says of an earlier section or symbol is related by `S` and `T`. -/
inductive ReadError.Alike (R : Location → Location → Prop)
    (S T : Text → Location → Location → Prop) : ReadError → ReadError → Prop
  | noSection {l l' : Location} : R l l' → Alike R S T (.noSection l) (.noSection l')
  | duplicateSection {name : Text} {l l' e e' : Location} : R l l' → S name e e' →
    Alike R S T (.duplicateSection name l e) (.duplicateSection name l' e')
  | duplicateSymbol {command : Text} {l l' e e' : Location} : R l l' → T command e e' →
    Alike R S T (.duplicateSymbol command l e) (.duplicateSymbol command l' e')
  | malformedSection {content : Text} {l l' : Location} :
    R l l' → Alike R S T (.malformedSection content l) (.malformedSection content l')
  | malformedNomenclature {value : Text} {l l' : Location} :
    R l l' → Alike R S T (.malformedNomenclature value l) (.malformedNomenclature value l')
  | unterminatedTag {l l' : Location} :
    R l l' → Alike R S T (.unterminatedTag l) (.unterminatedTag l')

theorem Warning.alike_self (hR : ∀ l, R l l) (w : Warning) : w.Alike R w := by
  cases w with
  | unknownTag => exact .unknownTag (hR _)
  | tagOverwritten => exact .tagOverwritten (hR _)
  | floatingTag => exact .floatingTag (hR _)
  | disagreement => exact .disagreement (hR _)

/-! ## Equal locations -/

theorem Block.alike_eq {b b' : Block} (h : b.Alike (· = ·) b') : b' = b := by
  obtain ⟨rfl⟩ := h
  rfl

theorem Declaration.alike_eq {d d' : Declaration} (h : d.Alike (· = ·) d') : d' = d := by
  obtain ⟨rfl⟩ := h
  rfl

theorem Event.alike_eq {event event' : Event} (h : event.Alike (· = ·) event') :
    event' = event := by
  cases h with
  | passthrough hl => rw [hl]
  | _ => rfl

theorem Warning.alike_eq {w w' : Warning} (h : w.Alike (· = ·) w') : w' = w := by
  cases h <;> simp_all only

theorem ReadError.alike_eq {e e' : ReadError}
    (h : e.Alike (· = ·) (fun _ => (· = ·)) (fun _ => (· = ·)) e') : e' = e := by
  cases h <;> simp_all only

/-! ## Runs of blocks -/

theorem attributesFrom_alike {run run' : List Block}
    (h : List.Forall₂ (Block.Alike R) run run') (before : Attributes) :
    attributesFrom before run' = attributesFrom before run := by
  induction h generalizing before with
  | nil => rfl
  | cons hb _ ih =>
    obtain ⟨-⟩ := hb
    exact ih _

theorem attributesOf_alike {run run' : List Block}
    (h : List.Forall₂ (Block.Alike R) run run') : attributesOf run' = attributesOf run :=
  attributesFrom_alike h _

theorem Block.warnings_alike {b b' : Block} (h : b.Alike R b') (known : List Text)
    (before : Attributes) :
    List.Forall₂ (Warning.Alike R) (b.warnings known before) (b'.warnings known before) := by
  obtain ⟨hl⟩ := h
  simp only [Block.warnings]
  refine List.rel_append ?_ ?_
  · split
    · exact .nil
    · exact .cons (.unknownTag hl) .nil
  · split
    · exact .cons (.tagOverwritten hl) .nil
    · exact .nil

theorem runWarningsFrom_alike {run run' : List Block}
    (h : List.Forall₂ (Block.Alike R) run run') (known : List Text) (before : Attributes) :
    List.Forall₂ (Warning.Alike R) (runWarningsFrom known before run)
      (runWarningsFrom known before run') := by
  induction h generalizing before with
  | nil => exact .nil
  | cons hb _ ih =>
    have hfirst := Block.warnings_alike hb known before
    obtain ⟨-⟩ := hb
    exact List.rel_append hfirst (ih _)

theorem runWarnings_alike {run run' : List Block}
    (h : List.Forall₂ (Block.Alike R) run run') (known : List Text) :
    List.Forall₂ (Warning.Alike R) (runWarnings known run) (runWarnings known run') :=
  runWarningsFrom_alike h known _

theorem disagreements_alike {l l' : Location} (h : R l l') (command : Text)
    (above own : Attributes) :
    List.Forall₂ (Warning.Alike R) (above.disagreements command l own)
      (above.disagreements command l' own) := by
  unfold Attributes.disagreements
  induction own.entries with
  | nil => exact .nil
  | cons e entries ih =>
    cases hvalue : above.differing? e.1 e.2 with
    | none => simpa [hvalue] using ih
    | some value => simpa [hvalue] using ⟨Warning.Alike.disagreement h, ih⟩

/-! ## Groups -/

theorem ItemGroup.event?_alike {g g' : ItemGroup} (h : g.Alike R g') :
    Option.Rel (Event.Alike R) g.event? g'.event? := by
  obtain ⟨first, run⟩ := g
  obtain ⟨first', run'⟩ := g'
  obtain ⟨hfirst, -⟩ := h
  cases hfirst with
  | unterminated => exact .none
  | definition => exact .some .defined
  | passthrough hl => exact .some (.passthrough hl)
  | block hb =>
    obtain ⟨-⟩ := hb
    simp only [event?]
    split
    · exact .some .declared
    · exact .none

theorem isHead_alike {item item' : Item} (h : item.Alike R item') : isHead item' = isHead item := by
  cases h with
  | block hb =>
    obtain ⟨-⟩ := hb
    rfl
  | _ => rfl

theorem runOf_alike {items items' : List Item} (h : List.Forall₂ (Item.Alike R) items items') :
    List.Forall₂ (Block.Alike R) (runOf items) (runOf items') ∧
      List.Forall₂ (Item.Alike R) (behindRun items) (behindRun items') := by
  induction h with
  | nil => exact ⟨.nil, .nil⟩
  | @cons item item' items items' hitem hrest ih =>
    have hstop : ∀ {item item' : Item}, item.Alike R item' → isTrailing item = false →
        isTrailing item' = false →
        List.Forall₂ (Block.Alike R) (runOf (item :: items)) (runOf (item' :: items')) ∧
        List.Forall₂ (Item.Alike R) (behindRun (item :: items)) (behindRun (item' :: items')) := by
      intro item item' hitem hno hno'
      rw [runOf, runOf, behindRun, behindRun, leadingBlocks_of_not hno, leadingBlocks_of_not hno',
        afterBlocks_of_not hno, afterBlocks_of_not hno']
      exact ⟨.nil, .cons hitem hrest⟩
    cases hitem with
    | unterminated hl => exact hstop (.unterminated hl) rfl rfl
    | definition hl => exact hstop (.definition hl) rfl rfl
    | passthrough hl => exact hstop (.passthrough hl) rfl rfl
    | @block b b' hb =>
      have htag : b'.tag = b.tag := by
        obtain ⟨-⟩ := hb
        rfl
      by_cases hdeclares : b.tag = Tag.declares
      · refine hstop (.block hb) ?_ ?_
        · simp [isTrailing_item, hdeclares]
        · simp [isTrailing_item, htag, hdeclares]
      · have hgoes : b.tag ∉ [Tag.declares] := by simpa using hdeclares
        have hgoes' : b'.tag ∉ [Tag.declares] := by rwa [htag]
        rw [runOf, runOf, behindRun, behindRun, Block.item, Block.item, leadingBlocks_cons hgoes,
          leadingBlocks_cons hgoes', afterBlocks_cons hgoes, afterBlocks_cons hgoes']
        exact ⟨.cons hb ih.1, ih.2⟩

/-- **Items alike are grouped alike.** -/
theorem ofItems_alike {items items' : List Item} (h : List.Forall₂ (Item.Alike R) items items') :
    List.Forall₂ (ItemGroup.Alike R) (ofItems items) (ofItems items') := by
  fun_induction ofItems items generalizing items' with
  | case1 =>
    cases h
    rw [ofItems]
    exact .nil
  | case2 item rest hhead ih =>
    cases h with
    | cons hitem hrest =>
      obtain ⟨hrun, hbehind⟩ := runOf_alike hrest
      rw [ofItems_cons_of_isHead ((isHead_alike hitem).trans hhead)]
      exact .cons ⟨hitem, hrun⟩ (ih hbehind)
  | case3 item rest hhead ih =>
    cases h with
    | cons hitem hrest =>
      have hhead' := (isHead_alike hitem).trans (Bool.eq_false_iff.2 hhead)
      rw [ofItems_cons_of_not_isHead hhead']
      exact .cons ⟨hitem, .nil⟩ (ih hrest)

end TexSymbols

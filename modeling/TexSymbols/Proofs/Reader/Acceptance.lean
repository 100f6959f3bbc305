import TexSymbols.Proofs.Reader.Refinement
import TexSymbols.Proofs.Token.Stream

/-!
# Which texts are read without an error

* `ItemGroup.Accepted` — what a group has to satisfy behind others; `Reads.exists_iff` — reading
  succeeds exactly if every group does.
* `Acceptable` — the conditions on a text, each on its own and without an order of reading.
* `Catalogue.read_new_error_eq_none_iff` — a text is read into a new catalogue without an error
  exactly if it is acceptable.
-/

namespace TexSymbols

open ItemGroup

/-! ## Values and heads -/

/-- The value of an entry is right if it is blank or has one colon. -/
theorem NomenclatureEntry.read?_isSome_iff {value : Text} (hvalue : Text.trim value = value) :
    (NomenclatureEntry.read? value).isSome ↔ value = [] ∨ value.count ':' = 1 := by
  unfold NomenclatureEntry.read?
  rw [hvalue]
  cases value with
  | nil => simp
  | cons c t =>
    cases hs : Text.splitOnce ':' (c :: t) with
    | none =>
      have hn := Text.splitOnce_eq_none_iff.1 hs
      simp [List.count_eq_zero_of_not_mem hn]
    | some parts =>
      obtain ⟨label, text⟩ := parts
      obtain ⟨heq, hlabel⟩ := Text.splitOnce_eq_some_iff.1 hs
      rw [heq, List.count_append, List.count_eq_zero_of_not_mem hlabel, List.count_cons_self]
      by_cases hmem : ':' ∈ text
      · have hpos : 0 < text.count ':' := List.count_pos_iff.2 hmem
        have hne : text.count ':' ≠ 0 := by omega
        simp [hmem, hne]
      · simp [hmem, List.count_eq_zero_of_not_mem hmem]

theorem sectionHead?_isSome_iff {b : Block} :
    (sectionHead? b.content).isSome ↔ b.content.count ':' = 1 ∧ b.sectionName ≠ [] := by
  rw [Option.isSome_iff_exists, Text.count_eq_one_iff]
  constructor
  · rintro ⟨⟨name, description⟩, h⟩
    have hname := sectionName_eq h
    obtain ⟨before, after, hc, hb, ha, hne, rfl, -⟩ := sectionHead?_eq_some_iff.1 h
    exact ⟨⟨before, after, hc, hb, ha⟩, hname ▸ hne⟩
  · rintro ⟨⟨before, after, hc, hb, ha⟩, hne⟩
    rw [Block.sectionName, hc, Text.takeWhile_append hb] at hne
    exact ⟨(Text.trim before, Text.trim after),
      sectionHead?_eq_some_iff.2 ⟨before, after, hc, hb, ha, hne, rfl, rfl⟩⟩

theorem entryOf_eq (run : List Block) :
    Progress.entryOf run = ((lastTagged Tag.entry run).map Block.value).getD [] := by
  rw [Progress.entryOf, find?_attributesOf]

/-! ## Group by group -/

/-- What the group `g` has to satisfy behind the groups `before`, if nothing else was read. -/
def ItemGroup.Accepted (before : List ItemGroup) (g : ItemGroup) : Prop :=
  match g.first with
  | .error _ => False
  | .ok (.passthrough ..) => True
  | .ok (.definition d _) =>
    before.filterMap section? ≠ [] ∧ d.command ∉ before.filterMap command? ∧
      (NomenclatureEntry.read? (Progress.entryOf g.run)).isSome
  | .ok (.block b) =>
    b.tag = Tag.declares →
      (sectionHead? b.content).isSome ∧ b.sectionName ∉ before.filterMap section?

namespace Reads

variable {knownTags : List Text} {before groups : List ItemGroup} {g : ItemGroup} {p : Progress}
  {name : Text}

theorem Outcome.declares_iff (h : Outcome (.new knownTags) before p) :
    p.catalogue.Declares name ↔ name ∈ before.filterMap section? := by
  constructor
  · intro hd
    by_contra hmem
    rw [Catalogue.Declares, h.others name hmem] at hd
    cases hd
  · intro hmem
    obtain ⟨o, ho⟩ := h.declaration?_of_mem hmem
    rw [Catalogue.Declares, ho]
    rfl

theorem Outcome.find?_symbol_iff (h : Outcome (.new knownTags) before p) :
    p.catalogue.symbols.find? name = none ↔ name ∉ before.filterMap command? := by
  obtain ⟨new, hnew, hcommands⟩ := h.symbols_eq
  rw [OrderedMap.find?_eq_none, OrderedMap.keys, hnew, ← hcommands]
  rfl

/-- A group is read without an error exactly if it is accepted behind the groups before it. -/
theorem Outcome.read_iff (h : Outcome (.new knownTags) before p) :
    (g.read p).1 = none ↔ g.Accepted before := by
  obtain ⟨first, run⟩ := g
  unfold ItemGroup.Accepted
  rcases first with e | ⟨d, loc⟩ | b | ⟨line, loc⟩
  · simp [ItemGroup.read]
  · simp only [ItemGroup.read, Progress.readDefinition]
    cases hcurrent : p.current with
    | none =>
      have hnil : before.filterMap section? = [] :=
        List.getLast?_eq_none_iff.1 (h.current_eq.symm.trans hcurrent)
      simp [hnil]
    | some owner =>
      have hne : before.filterMap section? ≠ [] := by
        intro hnil
        rw [h.current_eq, hnil] at hcurrent
        cases hcurrent
      rw [← h.find?_symbol_iff]
      cases hentry : NomenclatureEntry.read? (Progress.entryOf run) with
      | none => simp
      | some nomenclature =>
        cases hsymbol : p.catalogue.symbols.find? d.command <;> simp [hsymbol, hne]
  · simp only [ItemGroup.read]
    by_cases htag : b.tag = Tag.declares
    · simp only [if_pos htag, Progress.readSection]
      cases hhead : sectionHead? b.content with
      | none => simp [htag]
      | some head =>
        obtain ⟨name, description⟩ := head
        rw [sectionName_eq hhead, ← h.declares_iff]
        have hdeclares : (p.warn (runWarnings p.catalogue.knownTags run)).catalogue.Declares name ↔
            p.catalogue.Declares name := Iff.rfl
        cases hdec : (p.warn (runWarnings p.catalogue.knownTags run)).catalogue.declare name
            ⟨description, attributesOf run, b.loc⟩ with
        | error e =>
          obtain ⟨earlier, hearlier, -⟩ := Catalogue.declare_eq_error hdec
          have hdeclared : p.catalogue.Declares name :=
            hdeclares.1 (by rw [Catalogue.Declares, hearlier]; rfl)
          simp [htag, hdec, hdeclared]
        | ok c =>
          have hnew : ¬ p.catalogue.Declares name :=
            fun hd => Catalogue.exists_declare_eq_ok_iff.1 ⟨c, hdec⟩ (hdeclares.2 hd)
          simp [hdec, hnew]
    · simp [htag]
  · simp [ItemGroup.read]

/-- Reading succeeds exactly if every group is accepted behind those before it. -/
theorem exists_iff (knownTags : List Text) : (∃ p', Reads ⟨.new knownTags, none⟩ groups p') ↔
    ∀ before g after, groups = before ++ g :: after → g.Accepted before := by
  constructor
  · rintro ⟨p', hreads⟩ before g after rfl
    obtain ⟨p₁, p₂, hbefore, hg, -⟩ := hreads.split
    exact hbefore.outcome.read_iff.1 (by rw [hg])
  · intro h
    induction groups using List.reverseRecOn with
    | nil => exact ⟨_, .nil _⟩
    | append_singleton groups g ih =>
      obtain ⟨p, hreads⟩ := ih fun before g' after hsplit =>
        h before g' (after ++ [g]) (by rw [hsplit, List.append_assoc, List.cons_append])
      have hread : (g.read p).1 = none := hreads.outcome.read_iff.2 (h groups g [] rfl)
      exact ⟨_, hreads.append (.cons (Prod.ext hread rfl) (.nil _))⟩

end Reads

/-! ## Item by item -/

/-- The block of a section tag. -/
def Item.section? : Item → Option Block
  | .ok (.block b) => if b.tag = Tag.declares then some b else none
  | _ => none

/-- The command of a definition. -/
def Item.command? : Item → Option Text
  | .ok (.definition d _) => some d.command
  | _ => none

theorem Item.section?_eq_some_iff {item : Item} {b : Block} :
    item.section? = some b ↔ item = b.item ∧ b.tag = Tag.declares := by
  rcases item with e | ⟨d, loc⟩ | b' | ⟨line, loc⟩
  · simp [Item.section?, Block.item]
  · simp [Item.section?, Block.item]
  · constructor
    · intro h
      obtain ⟨htag, hb⟩ := Option.ite_none_right_eq_some.1 h
      cases hb
      exact ⟨rfl, htag⟩
    · rintro ⟨hb, htag⟩
      cases hb
      exact if_pos htag
  · simp [Item.section?, Block.item]

theorem Item.command?_eq_some_iff {item : Item} {command : Text} :
    item.command? = some command ↔
      ∃ d loc, item = .ok (.definition d loc) ∧ d.command = command := by
  rcases item with e | ⟨d, loc⟩ | b | ⟨line, loc⟩ <;> simp [Item.command?]

/-- The names in the section tags among the items. -/
def sectionNames (items : List Item) : List Text :=
  items.filterMap fun item => item.section?.map Block.sectionName

/-- The commands of the definitions among the items. -/
def definedCommands (items : List Item) : List Text := items.filterMap Item.command?

/-- What an item has to satisfy between others. -/
def Item.Accepted (before after : List Item) : Item → Prop
  | .error _ => False
  | .ok (.passthrough ..) => True
  | .ok (.definition d _) =>
    sectionNames before ≠ [] ∧ d.command ∉ definedCommands before ∧
      (NomenclatureEntry.read? (Progress.entryOf (runOf after))).isSome
  | .ok (.block b) =>
    b.tag = Tag.declares →
      (sectionHead? b.content).isSome ∧ b.sectionName ∉ sectionNames before

theorem sectionNames_append (before after : List Item) :
    sectionNames (before ++ after) = sectionNames before ++ sectionNames after := by
  simp [sectionNames]

theorem definedCommands_append (before after : List Item) :
    definedCommands (before ++ after) = definedCommands before ++ definedCommands after := by
  simp [definedCommands]

theorem sectionNames_map_item {run : List Block} (h : ∀ b ∈ run, b.tag ≠ Tag.declares) :
    sectionNames (run.map Block.item) = [] := by
  rw [sectionNames, List.filterMap_eq_nil_iff]
  intro item hitem
  obtain ⟨b, hb, rfl⟩ := List.mem_map.1 hitem
  simp [Block.item, Item.section?, h b hb]

theorem definedCommands_map_item (run : List Block) :
    definedCommands (run.map Block.item) = [] := by
  simp [definedCommands, List.filterMap_map, Function.comp_def, Block.item, Item.command?]

theorem sectionNames_first (g : ItemGroup) : sectionNames [g.first] = g.section?.toList := by
  obtain ⟨first, run⟩ := g
  rcases first with e | ⟨d, loc⟩ | b | ⟨line, loc⟩
  · rfl
  · rfl
  · by_cases htag : b.tag = Tag.declares
    · simp [sectionNames, Item.section?, ItemGroup.section?, event?, htag, Event.section?]
    · simp [sectionNames, Item.section?, ItemGroup.section?, event?, htag]
  · rfl

theorem definedCommands_first (g : ItemGroup) : definedCommands [g.first] = g.command?.toList := by
  obtain ⟨first, run⟩ := g
  rcases first with e | ⟨d, loc⟩ | b | ⟨line, loc⟩
  · rfl
  · rfl
  · by_cases htag : b.tag = Tag.declares
    · simp [definedCommands, Item.command?, command?, event?, htag, Event.command?]
    · simp [definedCommands, Item.command?, command?, event?, htag]
  · rfl

/-- Groups declare the sections of their items. -/
theorem sectionNames_flatMap {groups : List ItemGroup}
    (h : ∀ g ∈ groups, ∀ b ∈ g.run, b.tag ≠ Tag.declares) :
    sectionNames (groups.flatMap ItemGroup.items) = groups.filterMap ItemGroup.section? := by
  induction groups with
  | nil => rfl
  | cons g groups ih =>
    have hrest := ih fun g' hg' => h g' (List.mem_cons_of_mem _ hg')
    have hfirst : sectionNames g.items = g.section?.toList := by
      rw [ItemGroup.items, ← List.singleton_append, sectionNames_append, sectionNames_first,
        sectionNames_map_item (h g List.mem_cons_self), List.append_nil]
    rw [List.flatMap_cons, sectionNames_append, hrest, hfirst]
    cases hname : g.section? <;> simp [hname]

theorem definedCommands_flatMap (groups : List ItemGroup) :
    definedCommands (groups.flatMap ItemGroup.items) = groups.filterMap command? := by
  induction groups with
  | nil => rfl
  | cons g groups ih =>
    have hfirst : definedCommands g.items = g.command?.toList := by
      rw [ItemGroup.items, ← List.singleton_append, definedCommands_append, definedCommands_first,
        definedCommands_map_item, List.append_nil]
    rw [List.flatMap_cons, definedCommands_append, ih, hfirst]
    cases hcommand : g.command? <;> simp [hcommand]

/-- A group is accepted behind other groups exactly if its first item is accepted between the other
items. -/
theorem accepted_first_iff {items rest : List Item} {groups later : List ItemGroup} {g : ItemGroup}
    (h : ofItems items = groups ++ g :: later) (hrun : isHead g.first = true → g.run = runOf rest) :
    g.Accepted groups ↔ g.first.Accepted (groups.flatMap ItemGroup.items) rest := by
  have htags : ∀ g' ∈ groups, ∀ b ∈ g'.run, b.tag ≠ Tag.declares := fun g' hg' b hb =>
    (run_of_mem_ofItems (by rw [h]; exact List.mem_append_left _ hg') hb).2
  rw [ItemGroup.Accepted, Item.Accepted.eq_def, sectionNames_flatMap htags, definedCommands_flatMap]
  obtain ⟨first, run⟩ := g
  rcases first with e | ⟨d, loc⟩ | b | ⟨line, loc⟩
  · rfl
  · rw [hrun rfl]
  · rfl
  · rfl

/-- All groups are accepted exactly if all items are. -/
theorem accepted_groups_iff {items : List Item} :
    (∀ before g after, ofItems items = before ++ g :: after → g.Accepted before) ↔
      ∀ before (item : Item) after, items = before ++ item :: after →
        item.Accepted before after := by
  constructor
  · rintro h before item after rfl
    cases htrail : isTrailing item with
    | true =>
      obtain ⟨b, rfl, htag⟩ := isTrailing_eq_true_iff.1 htrail
      exact fun htag' => absurd htag' htag
    | false =>
      obtain ⟨groups, g, later, hgroups, rfl, rfl⟩ := exists_group_of_split before after htrail
      obtain ⟨rest, hrest, hrun⟩ := exists_rest_of_groups hgroups
      obtain rfl := (List.cons.inj (List.append_cancel_left hrest)).2
      exact (accepted_first_iff hgroups hrun).1 (h _ _ _ hgroups)
  · intro h before g after hgroups
    obtain ⟨rest, hrest, hrun⟩ := exists_rest_of_groups hgroups
    exact (accepted_first_iff hgroups hrun).2 (h _ _ _ hrest)

/-! ## Texts -/

/-- The conditions on a text. -/
structure Acceptable (file text : Text) : Prop where
  /-- Every tagged comment line has a second colon. -/
  tags_terminated : ∀ line ∈ Text.lines text, ∀ rest, Text.trimStart line = '%' :: ':' :: rest →
    ':' ∈ rest
  /-- The content of every section tag has one colon, and a name before it. -/
  sections_formed : ∀ b ∈ (Token.stream file text).filterMap Item.section?,
    b.content.count ':' = 1 ∧ b.sectionName ≠ []
  sections_distinct : (sectionNames (Token.stream file text)).Nodup
  /-- Every definition has a section tag before it. -/
  definitions_within :
    ∀ before d loc after, Token.stream file text = before ++ .ok (.definition d loc) :: after →
    sectionNames before ≠ []
  commands_distinct : (definedCommands (Token.stream file text)).Nodup
  /-- The last entry for the nomenclature in the run behind a definition is blank or has one
  colon. -/
  entries_formed :
    ∀ before d loc after, Token.stream file text = before ++ .ok (.definition d loc) :: after →
    ∀ b ∈ lastTagged Tag.entry (runOf after), b.value = [] ∨ b.value.count ':' = 1

/-- No value stands twice exactly if none stands among those before it. -/
theorem nodup_filterMap_iff {α β : Type} {f : α → Option β} {l : List α} :
    (l.filterMap f).Nodup ↔ ∀ before x after, l = before ++ x :: after →
      ∀ y ∈ f x, y ∉ before.filterMap f := by
  constructor
  · rintro h before x after rfl y hy hmem
    rw [List.filterMap_append, List.filterMap_cons_some hy, List.nodup_append] at h
    exact h.2.2 y hmem y List.mem_cons_self rfl
  · intro h
    induction l using List.reverseRecOn with
    | nil => exact List.nodup_nil
    | append_singleton l x ih =>
      have hold : (l.filterMap f).Nodup := ih fun before z after hsplit =>
        h before z (after ++ [x]) (by rw [hsplit, List.append_assoc, List.cons_append])
      have hlast := h l x [] rfl
      rw [List.filterMap_append, List.nodup_append]
      cases hx : f x with
      | none => simpa [hx] using hold
      | some y =>
        rw [hx] at hlast
        have hy : y ∉ l.filterMap f := hlast y rfl
        refine ⟨hold, by simp [hx], ?_⟩
        intro z hz w hw hzw
        simp only [List.filterMap_cons_some hx, List.filterMap_nil, List.mem_singleton] at hw
        exact hy (hw ▸ hzw ▸ hz)

theorem entry_isSome_iff (run : List Block) :
    (NomenclatureEntry.read? (Progress.entryOf run)).isSome ↔
    ∀ b ∈ lastTagged Tag.entry run, b.value = [] ∨ b.value.count ':' = 1 := by
  rw [entryOf_eq]
  cases lastTagged Tag.entry run with
  | none => simp [NomenclatureEntry.read?, Text.trim, Text.trimStart, Text.trimEnd]
  | some b =>
    have hvalue : Text.trim b.value = b.value := Text.trim_trim b.content
    simpa using NomenclatureEntry.read?_isSome_iff hvalue

/-- All items are accepted exactly if the text is acceptable. -/
theorem acceptable_iff (file text : Text) : Acceptable file text ↔
    ∀ before (item : Item) after, Token.stream file text = before ++ item :: after →
      item.Accepted before after := by
  constructor
  · intro h before item after hsplit
    rcases item with e | ⟨d, loc⟩ | b | ⟨line, loc⟩
    · have herror : ∃ e, .error e ∈ Token.streamFrom file 0 (Text.lines text) :=
        ⟨e, by rw [← Token.stream, hsplit]; simp⟩
      obtain ⟨line, hline, rest, hrest, hcolon⟩ :=
        (Token.exists_error_streamFrom_iff file 0 _).1 herror
      exact hcolon (h.tags_terminated line hline rest (taggedRest?_eq_some_iff.1 hrest))
    · refine ⟨h.definitions_within before d loc after hsplit, ?_, ?_⟩
      · exact nodup_filterMap_iff.1 h.commands_distinct before _ after hsplit d.command rfl
      · exact (entry_isSome_iff _).2 (h.entries_formed before d loc after hsplit)
    · intro htag
      have hsection : Item.section? (.ok (.block b)) = some b :=
        Item.section?_eq_some_iff.2 ⟨rfl, htag⟩
      refine ⟨sectionHead?_isSome_iff.2 (h.sections_formed b ?_), ?_⟩
      · exact List.mem_filterMap.2 ⟨_, by rw [hsplit]; simp, hsection⟩
      · exact nodup_filterMap_iff.1 h.sections_distinct before _ after hsplit b.sectionName
          (by simp [hsection])
    · trivial
  · intro h
    refine ⟨?_, ?_, ?_, ?_, ?_, ?_⟩
    · intro line hline rest hrest
      by_contra hcolon
      have hbad : Unterminated line := ⟨rest, taggedRest?_eq_some_iff.2 hrest, hcolon⟩
      obtain ⟨e, he⟩ := (Token.exists_error_streamFrom_iff file 0 _).2 ⟨line, hline, hbad⟩
      obtain ⟨before, after, hsplit⟩ := List.append_of_mem he
      exact h before _ after hsplit
    · intro b hb
      obtain ⟨item, hitem, hsection⟩ := List.mem_filterMap.1 hb
      obtain ⟨rfl, htag⟩ := Item.section?_eq_some_iff.1 hsection
      obtain ⟨before, after, hsplit⟩ := List.append_of_mem hitem
      exact sectionHead?_isSome_iff.1 (h before _ after hsplit htag).1
    · rw [sectionNames, nodup_filterMap_iff]
      intro before item after hsplit name hname
      obtain ⟨b, hsection, rfl⟩ := Option.map_eq_some_iff.1 hname
      obtain ⟨rfl, htag⟩ := Item.section?_eq_some_iff.1 hsection
      exact (h before _ after hsplit htag).2
    · intro before d loc after hsplit
      exact (h before _ after hsplit).1
    · rw [definedCommands, nodup_filterMap_iff]
      intro before item after hsplit command hcommand
      obtain ⟨d, loc, rfl, rfl⟩ := Item.command?_eq_some_iff.1 hcommand
      exact (h before _ after hsplit).2.1
    · intro before d loc after hsplit
      exact (entry_isSome_iff _).1 (h before _ after hsplit).2.2

/-- **A text is read into a new catalogue without an error exactly if it is acceptable.** -/
theorem Catalogue.read_new_error_eq_none_iff (knownTags : List Text) (file text : Text) :
    ((new knownTags).read file text none).error = none ↔ Acceptable file text := by
  rw [acceptable_iff, ← accepted_groups_iff, ← Reads.exists_iff knownTags]
  obtain ⟨done, rest, h⟩ := Reader.take_refines_groups (new knownTags) (Token.stream file text)
  rw [h.groups_eq]
  constructor
  · intro herror
    rcases h.ends with ⟨-, rfl, hreads⟩ | ⟨g, later, p, e, -, -, -, he, -⟩
    · rw [List.append_nil]
      exact ⟨_, hreads⟩
    · cases he.symm.trans herror
  · rintro ⟨p', hreads⟩
    rcases h.ends with ⟨herror, -, -⟩ | ⟨g, later, p, e, rfl, hdone, hg, -, -⟩
    · exact herror
    · have haccepted := (Reads.exists_iff knownTags).1 ⟨p', hreads⟩ done g later rfl
      have hok := hdone.outcome.read_iff.2 haccepted
      rw [hg] at hok
      cases hok

end TexSymbols

import TexSymbols.Proofs.Catalogue.Inheritance
import TexSymbols.Proofs.Symbol.Regenerate
import TexSymbols.Proofs.Text.Quoted
import TexSymbols.Proofs.Token.Partition

/-!
# Texts without line feeds

What a catalogue holds was read from single lines, or from comment lines with blanks between them.

* `Item.OneLine` — the texts of an item hold no line feed; `Item.oneLine_of_mem_stream` — those of
  the items of a text.
* `Symbol.OneLine`, `Declaration.OneLine` — the same of what becomes of them in a catalogue.
* `Progress.OneLine` — the invariant; `OneLine.step` — every group without line feeds keeps it.
* `Catalogue.oneLine_run` — it holds after every run, whatever names were reserved.
-/

namespace TexSymbols

/-! ## Pieces of a line -/

theorem Text.trimStart_subset (t : Text) : Text.trimStart t ⊆ t :=
  (List.dropWhile_sublist _).subset

theorem newline_notMem_trim {t : Text} (h : '\n' ∉ t) : '\n' ∉ Text.trim t :=
  fun hmem => h (Text.trim_subset t hmem)

theorem commentContent_subset (line : Text) : commentContent line ⊆ line := by
  intro c hc
  have hdrop := Text.trimStart_subset _ hc
  exact Text.trim_subset line ((List.dropWhile_sublist _).subset hdrop)

/-! ## Items -/

/-- No line of the block holds a line feed. -/
def Block.OneLine (b : Block) : Prop := ∀ line ∈ b.lines, '\n' ∉ line

/-- The command of a definition is one; neither its comment nor a line of a block holds a line
feed. -/
def Item.OneLine : Item → Prop
  | .ok (.definition d _) => IsCommand d.command ∧ '\n' ∉ d.comment
  | .ok (.block b) => b.OneLine
  | _ => True

theorem Block.OneLine.content {b : Block} (h : b.OneLine) : '\n' ∉ b.content := by
  intro hmem
  rcases Text.mem_join hmem with hblank | ⟨line, hline, hmem⟩
  · revert hblank
    decide
  · exact h line hline hmem

theorem Block.OneLine.value {b : Block} (h : b.OneLine) : '\n' ∉ b.value :=
  newline_notMem_trim h.content

theorem Block.oneLine_ofComment {tag first : Text} {more : List Text} {loc : Location}
    (hfirst : '\n' ∉ first) (hmore : ∀ line ∈ more, '\n' ∉ line) :
    (Block.ofComment tag first more loc).OneLine := by
  intro line hline
  have hmem := (List.mem_filter.1 hline).1
  rcases List.mem_cons.1 hmem with rfl | hline
  · exact newline_notMem_trim hfirst
  · obtain ⟨comment, hcomment, rfl⟩ := List.mem_map.1 hline
    exact fun hmem => hmore comment hcomment (commentContent_subset comment hmem)

/-- **Items of a text hold no line feed.** -/
theorem Item.oneLine_of_mem_stream {file text : Text} :
    ∀ item ∈ Token.stream file text, item.OneLine := by
  have hlines : ∀ line ∈ Text.lines text, '\n' ∉ line := fun _ h => Text.notMem_of_mem_lines h
  rw [Token.stream]
  generalize Text.lines text = lines at hlines
  generalize (0 : Nat) = n
  fun_induction Token.streamFrom file n lines with
  | case1 => simp
  | case2 n line rest loc d hd ih =>
    rw [List.forall_mem_cons] at hlines
    have hreadable := Definition.readable_of_read hd
    have hcomment := (Symbol.newline_notMem_of_readable hreadable hlines.1).2
    exact List.forall_mem_cons.2 ⟨⟨hreadable.isCommand, hcomment⟩, ih hlines.2⟩
  | case3 n line rest loc tag first htag more _ ih =>
    rw [List.forall_mem_cons] at hlines
    obtain ⟨behind, hbehind, hsplit⟩ := Option.map_eq_some_iff.1 htag
    obtain ⟨rfl, -⟩ := Text.splitOnce_eq_some_iff.1 hsplit
    have hfirst : '\n' ∉ first := by
      intro hmem
      refine hlines.1 (Text.trimStart_subset line ?_)
      rw [taggedRest?_eq_some_iff.1 hbehind]
      simp [hmem]
    have hmore : ∀ line ∈ more, '\n' ∉ line :=
      fun line hline => hlines.2 line ((List.takeWhile_sublist _).subset hline)
    refine List.forall_mem_cons.2 ⟨Block.oneLine_ofComment hfirst hmore, ih ?_⟩
    exact fun line hline => hlines.2 line ((List.dropWhile_sublist _).subset hline)
  | case4 n line rest loc htag _ ih =>
    exact List.forall_mem_cons.2 ⟨trivial, ih (List.forall_mem_cons.1 hlines).2⟩
  | case5 n line rest loc htag hd ih =>
    exact List.forall_mem_cons.2 ⟨trivial, ih (List.forall_mem_cons.1 hlines).2⟩

/-! ## Attributes and what is made of them -/

/-- No value holds a line feed. -/
def Attributes.OneLine (a : Attributes) : Prop := ∀ e ∈ a.entries, '\n' ∉ e.2

namespace Attributes.OneLine

variable {a own : Attributes} {tag value : Text}

theorem empty : Attributes.OneLine .empty := fun _ h => by cases h

theorem find? (h : Attributes.OneLine a) (hfind : a.find? tag = some value) : '\n' ∉ value :=
  h _ (OrderedMap.find?_eq_some_iff.1 hfind)

/-- The value of a tag, if it has one. -/
theorem getD (h : Attributes.OneLine a) : '\n' ∉ (a.find? tag).getD [] := by
  cases hfind : a.find? tag with
  | none => simp
  | some value => exact h.find? hfind

theorem insert (h : Attributes.OneLine a) (hvalue : '\n' ∉ value) :
    Attributes.OneLine (OrderedMap.insert a tag value) := by
  intro e he
  rcases OrderedMap.eq_or_mem_of_mem_insert he with rfl | he
  · exact hvalue
  · exact h e he

theorem attributesOf {run : List Block} (h : ∀ b ∈ run, b.OneLine) :
    Attributes.OneLine (attributesOf run) := by
  suffices hfrom : ∀ before, Attributes.OneLine before →
      Attributes.OneLine (attributesFrom before run) from hfrom _ empty
  induction run with
  | nil => exact fun _ hbefore => hbefore
  | cons b run ih =>
    rw [List.forall_mem_cons] at h
    exact fun before hbefore => ih h.2 _ (hbefore.insert h.1.value)

theorem inherit (h : Attributes.OneLine a) (hown : Attributes.OneLine own) :
    Attributes.OneLine (a.inherit own) := by
  suffices hfold : ∀ merged, Attributes.OneLine merged →
      Attributes.OneLine (own.entries.foldl (overlay a) merged) from hfold a h
  rw [Attributes.OneLine] at hown
  generalize own.entries = entries at hown
  induction entries with
  | nil => exact fun _ hmerged => hmerged
  | cons e entries ih =>
    rw [List.forall_mem_cons] at hown
    intro merged hmerged
    refine ih hown.2 _ ?_
    unfold overlay
    split
    · exact hmerged
    · exact hmerged.insert hown.1

end Attributes.OneLine

/-- Neither description nor attributes hold a line feed. -/
structure Declaration.OneLine (d : Declaration) : Prop where
  description : '\n' ∉ d.description
  attributes : Attributes.OneLine d.attributes

/-- No text of the symbol that is written in listings holds a line feed. -/
structure Symbol.OneLine (s : Symbol) : Prop where
  command : IsCommand s.command
  comment : '\n' ∉ s.comment
  owner : '\n' ∉ s.owner
  nomenclature : ∀ e ∈ s.nomenclature, '\n' ∉ e.label ∧ '\n' ∉ e.text
  attributes : Attributes.OneLine s.attributes

theorem NomenclatureEntry.oneLine_of_read? {value : Text} {entry : Option NomenclatureEntry}
    (h : NomenclatureEntry.read? value = some entry) (hvalue : '\n' ∉ value) :
    ∀ e ∈ entry, '\n' ∉ e.label ∧ '\n' ∉ e.text := by
  unfold NomenclatureEntry.read? at h
  split at h
  · cases h
    simp
  · rename_i label text hsplit _
    split at h
    · cases h
    · cases h
      obtain ⟨heq, -⟩ := Text.splitOnce_eq_some_iff.1 hsplit
      have htrim := newline_notMem_trim hvalue
      rw [heq] at htrim
      simp only [List.mem_append, List.mem_cons, not_or] at htrim
      intro e he
      obtain rfl := Option.some.inj (Option.mem_def.1 he)
      exact ⟨newline_notMem_trim htrim.1, newline_notMem_trim htrim.2.2⟩
  · cases h

theorem oneLine_of_sectionHead? {content name description : Text}
    (h : sectionHead? content = some (name, description)) (hcontent : '\n' ∉ content) :
    '\n' ∉ name ∧ '\n' ∉ description := by
  obtain ⟨before, after, rfl, -, -, -, rfl, rfl⟩ := sectionHead?_eq_some_iff.1 h
  simp only [List.mem_append, List.mem_cons, not_or] at hcontent
  exact ⟨newline_notMem_trim hcontent.1, newline_notMem_trim hcontent.2.2⟩

/-! ## Reading -/

/-- No item of the group holds a line feed. -/
def ItemGroup.OneLine (g : ItemGroup) : Prop := ∀ item ∈ g.items, item.OneLine

theorem ItemGroup.OneLine.first {g : ItemGroup} (h : g.OneLine) : g.first.OneLine :=
  h _ List.mem_cons_self

theorem ItemGroup.OneLine.attributesOf {g : ItemGroup} (h : g.OneLine) :
    Attributes.OneLine (attributesOf g.run) :=
  .attributesOf fun _ hb => h _ (List.mem_cons_of_mem _ (List.mem_map_of_mem hb))

namespace Progress

variable {p : Progress}

/-- What was read so far holds no line feed; a name that is only reserved may. -/
structure OneLine (p : Progress) : Prop where
  current : ∀ name ∈ p.current, '\n' ∉ name
  declarations : ∀ name d, p.catalogue.declaration? name = some d → d.OneLine
  symbols : ∀ s ∈ p.catalogue.symbols.values, s.OneLine

theorem OneLine.inherited (h : p.OneLine) (name : Text) :
    Attributes.OneLine (Reader.inherited p.catalogue name) := by
  rw [inherited_eq, Catalogue.declaredAttributes]
  cases hd : p.catalogue.declaration? name with
  | none => exact .empty
  | some d => exact (h.declarations name d hd).attributes

theorem OneLine.warn (h : p.OneLine) (ws : List Warning) : (p.warn ws).OneLine :=
  ⟨h.current, h.declarations, h.symbols⟩

/-- A section tag keeps it. -/
theorem OneLine.declare (h : p.OneLine) {name : Text} {d : Declaration} {c : Catalogue}
    (hdec : p.catalogue.declare name d = .ok c) (hname : '\n' ∉ name) (hd : d.OneLine) :
    OneLine ⟨c, some name⟩ where
  current other hother := by
    obtain rfl := Option.some.inj (Option.mem_def.1 hother)
    exact hname
  declarations other d' hother := by
    rw [Catalogue.declaration?_declare hdec] at hother
    split at hother
    · cases hother
      exact hd
    · exact h.declarations other d' hother
  symbols := by
    rw [(Catalogue.declare_frame hdec).1]
    exact h.symbols

/-- A definition keeps it. -/
theorem OneLine.register (h : p.OneLine) {s : Symbol} (hs : s.OneLine)
    (hnew : s.command ∉ p.catalogue.symbols.keys) :
    OneLine ⟨p.catalogue.register s, p.current⟩ where
  current := h.current
  declarations name d hd := by
    rw [Catalogue.declaration?_register] at hd
    exact h.declarations name d hd
  symbols t ht := by
    have hvalues : (p.catalogue.register s).symbols.values = p.catalogue.symbols.values ++ [s] :=
      OrderedMap.values_insert_of_notMem hnew _
    rw [hvalues, List.mem_append, List.mem_singleton] at ht
    rcases ht with hold | rfl
    · exact h.symbols t hold
    · exact hs

/-- **A group without line feeds keeps it.** -/
theorem OneLine.step {g : ItemGroup} {p' : Progress} (h : p.OneLine) (hg : g.OneLine)
    (hs : g.Step p p') : p'.OneLine := by
  cases hs with
  | passthrough => exact h
  | floating => exact h.warn _
  | declared hfirst _ hhead hdec =>
    have hblock := hg.first
    rw [hfirst] at hblock
    obtain ⟨hname, hdescription⟩ := oneLine_of_sectionHead? hhead (Block.OneLine.content hblock)
    exact (h.warn _).declare hdec hname ⟨hdescription, hg.attributesOf⟩
  | @defined d loc owner nomenclature hfirst howner hentry hnew =>
    have hd := hg.first
    rw [hfirst] at hd
    have hsymbol : (p.symbol owner d loc (attributesOf g.run) nomenclature).OneLine :=
      { command := hd.1
        comment := hd.2
        owner := h.current owner howner
        nomenclature := NomenclatureEntry.oneLine_of_read? hentry hg.attributesOf.getD
        attributes := (h.inherited owner).inherit hg.attributesOf }
    exact ((h.warn _).warn _).register hsymbol (OrderedMap.find?_eq_none.1 hnew)

end Progress

/-! ## Runs -/

namespace Catalogue

theorem historyInvariant_oneLine :
    HistoryInvariant fun past p => (∀ g ∈ past, g.OneLine) → p.OneLine where
  new _ _ := ⟨fun _ h => (by cases h), fun _ _ h => (by cases h), fun _ h => (by cases h)⟩
  step past p p' g _ h hs hpast := by
    rw [List.forall_mem_append] at hpast
    by_cases hevent : g.isEventful = true
    · exact (h hpast.1).step (hpast.2 g (by simp [hevent])) hs
    · -- only the other groups add to the catalogue
      cases hs with
      | passthrough => exact h hpast.1
      | floating => exact (h hpast.1).warn _
      | declared hfirst htag =>
        exact absurd (by simp [ItemGroup.isEventful, ItemGroup.event?, hfirst, Block.item, htag])
          hevent
      | defined hfirst =>
        exact absurd (by simp [ItemGroup.isEventful, ItemGroup.event?, hfirst]) hevent
  warn past p known run _ h hpast := (h hpast).warn _
  finish past p h hpast := { h hpast with current := fun _ hname => by cases hname }
  reserve past c name _ h hpast :=
    { h hpast with
      declarations := fun other d hd => (h hpast).declarations other d (by
        rwa [declaration?_reserve] at hd)
      symbols := by
        rw [(reserve_frame c name).1]
        exact (h hpast).symbols }
  link past c _ h hpast :=
    { h hpast with
      declarations := fun other d hd => (h hpast).declarations other d (by
        rwa [declaration?_link] at hd) }

/-- **After every run, what was read holds no line feed.** -/
theorem oneLine_run (knownTags : List Text) (operations : List Operation) :
    Progress.OneLine ⟨(new knownTags).run operations, none⟩ := by
  refine historyInvariant_oneLine.run knownTags operations fun g hg item hitem => ?_
  obtain ⟨file, text, pulls, -, hstream⟩ := mem_stream_of_mem_history hg hitem
  exact Item.oneLine_of_mem_stream item hstream

end Catalogue

end TexSymbols

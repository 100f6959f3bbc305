import TexSymbols.Listing.Compact
import TexSymbols.Listing.Selection
import TexSymbols.Proofs.Catalogue.Closure
import TexSymbols.Proofs.Catalogue.Sequence

/-!
# Three ways to write all definitions

* `Selection.render_default` — selecting all sections writes the symbols section by section.
* `WellFormed.closure_keys` — starting from all commands, the closure is all symbols.
* `compact_default` — compacting the definitions of a run writes the symbols in the order of events.
* `Catalogue.Agreement` — the three texts are one; `agreement_run` — after every run without
  reservations that leaves a section.
-/

namespace TexSymbols

/-! ## Section by section -/

namespace Catalogue

variable {c : Catalogue}

theorem namesMatching_everySection (h : c.sections.keys ≠ []) :
    c.namesMatching everySection = .ok c.sections.keys := by
  have hall : c.sections.keys.filter (fragmentMatches everySection) = c.sections.keys :=
    List.filter_eq_self.2 fun name _ => by simp [fragmentMatches]
  rw [namesMatching, hall]
  split
  · rename_i hnil
    exact absurd hnil h
  · rfl

/-- The fragment `all` selects the sections in the order of the catalogue. -/
theorem sectionsMatching_everySection (h : c.sections.keys ≠ []) :
    c.sectionsMatching everySection = .ok c.sections.values := by
  have hfragments : fragmentsOf everySection = [everySection] := by decide +kernel
  have hnames : [everySection].mapM c.namesMatching = .ok [c.sections.keys] := by
    rw [List.mapM_cons, namesMatching_everySection h]
    rfl
  have hdistinct : Text.distinct [c.sections.keys].flatten = c.sections.keys := by
    rw [List.flatten_singleton, Text.distinct_eq_self c.sections.nodup_keys]
  rw [sectionsMatching, hfragments, hnames]
  refine congrArg Except.ok ?_
  rw [hdistinct, OrderedMap.filterMap_find?_keys]

/-- An empty list of fragments selects nothing. -/
theorem sectionsMatching_nil (c : Catalogue) : c.sectionsMatching [] = .ok [] := by
  have hfragments : fragmentsOf [] = [] := by decide +kernel
  rw [sectionsMatching, hfragments]
  rfl

end Catalogue

/-- Selecting all sections, none of them in a colour, writes the symbols section by section. -/
theorem Selection.render_default {c : Catalogue} (h : c.sections.keys ≠ []) :
    Selection.render {} c = .ok (definitions (c.sections.values.flatMap c.symbolsOf)) := by
  have hvalues : c.sections.values ≠ [] := by
    simpa [OrderedMap.values, OrderedMap.keys] using h
  have hcolour : ∀ o : Section, Selection.Palette.colour? ⟨[], [], []⟩ o = none := by
    intro o
    simp [Palette.colour?]
  simp only [render, Catalogue.sectionsMatching_everySection h, Catalogue.sectionsMatching_nil]
  rw [definitions, List.flatMap_assoc]
  simp only [bind, Except.bind, if_neg hvalues, hcolour]
  rfl

/-! ## Event by event -/

namespace CompactOptions

/-- Without options a symbol is written as its definition. -/
theorem symbolText_default (s : Symbol) : symbolText {} s = s.texDefinition ++ "\n" := by
  have hbody : (fun body => markBody {} s (colorBody {} body)) = id := rfl
  rw [symbolText]
  simp only [Option.filter_none, hbody]
  split <;> rfl

/-- Of the definitions among some events there is written what is written for their commands. -/
theorem flatMap_eventText (o : CompactOptions) (c : Catalogue) (events : List Event) :
    (events.filter Event.isDefined).flatMap (o.eventText c) =
      (events.filterMap Event.command?).flatMap fun command =>
        o.eventText c (.defined command) := by
  induction events with
  | nil => rfl
  | cons event events ih =>
    cases event with
    | declared name => exact ih
    | passthrough line loc => exact ih
    | defined command =>
      rw [List.filter_cons_of_pos (show Event.isDefined (.defined command) = true from rfl),
        List.filterMap_cons_some (show Event.command? (.defined command) = some command from rfl),
        List.flatMap_cons, List.flatMap_cons, ih]

end CompactOptions

namespace Catalogue

variable {c : Catalogue}

/-- Compacting the definitions among some events writes the symbols, if the events define their
commands in order. -/
theorem compact_default {events : List Event}
    (h : events.filterMap Event.command? = c.symbols.keys) :
    compact {} c (events.filter Event.isDefined) = definitions c.symbols.values := by
  have htext : ∀ e ∈ c.symbols.entries,
      CompactOptions.eventText {} c (.defined e.1) = e.2.texDefinition ++ "\n" := by
    intro e he
    rw [CompactOptions.eventText, OrderedMap.find?_eq_some_iff.2 he, Option.map_some,
      Option.getD_some, CompactOptions.symbolText_default]
  calc compact {} c (events.filter Event.isDefined)
      = (events.filter Event.isDefined).flatMap (CompactOptions.eventText {} c) := rfl
    _ = c.symbols.keys.flatMap fun command => CompactOptions.eventText {} c (.defined command) := by
      rw [CompactOptions.flatMap_eventText, h]
    _ = c.symbols.entries.flatMap fun e => e.2.texDefinition ++ ("\n" : Text) := by
      rw [OrderedMap.keys, List.flatMap_map, List.flatMap_congr htext]
    _ = definitions c.symbols.values := by
      rw [definitions, OrderedMap.values, List.flatMap_map]

/-! ## All at once -/

/-- Starting from all commands, the closure is all symbols. -/
theorem WellFormed.closure_keys (hc : c.WellFormed) :
    c.closure c.symbols.keys = c.symbols.values := by
  classical
  rw [hc.closure_eq_filter, List.filter_eq_self]
  intro s hs
  have hkey : s.command ∈ c.symbols.keys :=
    OrderedMap.find?_isSome_iff.1 (by rw [hc.find?_command hs]; rfl)
  exact decide_eq_true (.of_mem hkey)

/-- Selecting everything, extracting everything and compacting the definitions among the events are
one text. -/
structure Agreement (c : Catalogue) (events : List Event) : Prop where
  select_eq : Selection.render {} c = .ok (definitions (c.closure c.symbols.keys))
  compact_eq : compact {} c (events.filter Event.isDefined) =
    definitions (c.closure c.symbols.keys)

/-- **The three ways agree after every run without reservations** that leaves a section. -/
theorem agreement_run (knownTags : List Text) (operations : List Operation)
    (hops : ∀ op ∈ operations, op.reserves = false)
    (hsections : ((new knownTags).run operations).sections.keys ≠ []) :
    ((new knownTags).run operations).Agreement ((new knownTags).events operations) := by
  have hc := (wellFormed_new knownTags).run operations
  have hvalues := values_eq_flatMap knownTags hops
  have hcommands := filterMap_command?_events knownTags operations
  refine ⟨?_, ?_⟩
  · rw [Selection.render_default hsections, ← hvalues, hc.closure_keys]
  · rw [compact_default hcommands, hc.closure_keys]

/-- A file that is given up at a second definition, one that is left before its end, and a third. -/
def brokenRun : List Operation :=
  [.read "a.tex" ("%:section:s : S\n\\newcommand\x7b\\x\x7d\x7b\\y\x7d\n" ++
      "text\n\\newcommand\x7b\\x\x7d\x7bz\x7d\n") none,
    .read "b.tex" ("%:section:t : T\n\\newcommand\x7b\\y\x7d[1]\x7b#1\x7d % y\n" ++
      "%:section:u : U\n") (some 2),
    .link,
    .read "c.tex" "\n%:section:s/v : V\n%:sort:v\n\\newcommand\x7b\\z\x7d\x7b\\x\\y\x7d\n" none]

theorem agreement_brokenRun : (∀ op ∈ brokenRun, op.reserves = false) ∧
    ((new []).run brokenRun).sections.keys ≠ [] ∧
    ((new []).run brokenRun).Agreement ((new []).events brokenRun) := by
  have hops : ∀ op ∈ brokenRun, op.reserves = false := by decide
  have hsections : ((new []).run brokenRun).sections.keys ≠ [] := by decide +kernel
  exact ⟨hops, hsections, agreement_run [] brokenRun hops hsections⟩

end Catalogue

end TexSymbols

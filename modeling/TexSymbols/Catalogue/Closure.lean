import TexSymbols.Catalogue
import TexSymbols.Log

/-!
# The symbols a document needs

* `Catalogue.explore` — follows references from a stack of commands, each command once.
* `Catalogue.closure` — the symbols that are reached, in the order of definition.
* `definitions` — their definitions, one after the other.
-/

namespace TexSymbols

/-- A command that the search came to. -/
inductive Visit
  | found (s : Symbol)
  | missing (command : Text)

namespace Visit

def symbol? : Visit → Option Symbol
  | found s => some s
  | missing _ => none

def logLine : Visit → LogLine
  | found s => ⟨.debug, "Found command " ++ Text.quoted s.command⟩
  | missing command => ⟨.debug, "Not found " ++ Text.quoted command⟩

end Visit

/-- The symbols with another command. -/
def others (symbols : List Symbol) (command : Text) : List Symbol := symbols.filter (·.command ≠ command)

theorem length_others_lt {symbols : List Symbol} {command : Text} {s : Symbol}
    (h : symbols.find? (·.command = command) = some s) : (others symbols command).length < symbols.length :=
  List.length_filter_lt_length_iff_exists.2
    ⟨s, List.mem_of_find?_eq_some h, by simpa using List.find?_some h⟩

/-- Follow references from the commands on the stack.  `unseen` holds the symbols that were not found yet, `seen` the
commands that were visited; the references of a symbol go on top of the stack, the last one uppermost. -/
def exploreFrom (unseen : List Symbol) (seen : List Text) : List Text → List Visit
  | [] => []
  | command :: stack =>
    if command ∈ seen then exploreFrom unseen seen stack
    else
      match _h : unseen.find? (·.command = command) with
      | some s =>
        .found s :: exploreFrom (others unseen command) (command :: seen) (s.references.reverse ++ stack)
      | none => .missing command :: exploreFrom unseen (command :: seen) stack
termination_by stack => (unseen.length, stack.length)
decreasing_by
  · exact Prod.Lex.right _ (Nat.lt_succ_self _)
  · exact Prod.Lex.left _ _ (length_others_lt _h)
  · exact Prod.Lex.right _ (Nat.lt_succ_self _)

namespace Catalogue

/-- Everything the search visits that starts from the commands `used`, the last one first. -/
def explore (c : Catalogue) (used : List Text) : List Visit :=
  exploreFrom c.symbols.values [] used.reverse

/-- The symbols that are used, directly or by the bodies of used symbols, in the order of definition. -/
def closure (c : Catalogue) (used : List Text) : List Symbol :=
  ((c.explore used).filterMap Visit.symbol?).mergeSort fun a b => a.order ≤ b.order

end Catalogue

/-- Definitions of symbols, one after the other. -/
def definitions (symbols : List Symbol) : Text := symbols.flatMap fun s => s.texDefinition ++ "\n"

end TexSymbols

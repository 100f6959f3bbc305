import TexSymbols.Listing.Inspection
import TexSymbols.Program.Load

/-!
# Showing how sources are read

* `Inspection` — what is shown of several sources up to the first error.
* `inspectTokens`, `inspectEvents` — the tokens, or the events, of sources in one catalogue.
-/

namespace TexSymbols

/-- What is shown of sources, up to the first error. -/
structure Inspection where
  lines : List Text
  notices : List Notice
  error : Option ReadError

/-- What is shown of the items of a file. -/
def inspectItems : List Item → Inspection
  | [] => ⟨[], [], none⟩
  | .error e :: _ => ⟨[], [], some e⟩
  | .ok token :: items =>
    let rest := inspectItems items
    { rest with lines := token.inspect :: rest.lines, notices := Item.notices (.ok token) ++ rest.notices }

/-- The tokens of sources, each given by name and text. -/
def inspectTokens (sources : List (Text × Text)) : Inspection :=
  inspectItems (sources.flatMap fun s => Token.stream s.1 s.2)

/-- The events of sources, each given by name and text, that are read into one catalogue. -/
def inspectEvents (c : Catalogue) : List (Text × Text) → Inspection
  | [] => ⟨[], [], none⟩
  | (name, text) :: sources =>
    let r := c.read name text none
    let shown := r.events.map Event.inspect
    match r.error with
    | some e => ⟨shown, r.reader.notices, some e⟩
    | none =>
      let rest := inspectEvents r.reader.catalogue sources
      { rest with lines := shown ++ rest.lines, notices := r.reader.notices ++ rest.notices }

end TexSymbols

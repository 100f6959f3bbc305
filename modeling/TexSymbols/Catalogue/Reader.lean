import TexSymbols.Attributes.Inherit
import TexSymbols.Catalogue

/-!
# Reading definitions into a catalogue

A reader goes through the items of one file, pull by pull.  It stands before the first section of the file or
within a section.  A section tag moves it into that section; a definition makes a symbol of the current section;
both take the tagged blocks right after them as attributes.  Any other tagged block is dropped with a warning.  After
the first error a reader yields nothing more.

* `Event` — what a pull yields.
* `Reader.next` — one pull.
* `Reader.take`, `Catalogue.read` — a number of pulls, or all of them.
-/

namespace TexSymbols

/-- What reading a file yields, in the order of the file. -/
inductive Event
  /-- A section was declared. -/
  | declared (name : Text)
  /-- A symbol was defined. -/
  | defined (command : Text)
  /-- A line that is neither, to be reproduced as it is. -/
  | passthrough (line : Text) (loc : Location)
deriving DecidableEq

/-- The state of reading one file. -/
structure Reader where
  catalogue : Catalogue
  items : Lookahead Item
  /-- The section that definitions belong to. -/
  current : Option Text
  /-- Whether an error was met. -/
  failed : Bool
  /-- What there was to report so far. -/
  notices : List Notice

/-- The name and description in the content of a section tag: `name : description`, with no further colon and a
name that is not blank. -/
def sectionHead? (content : Text) : Option (Text × Text) :=
  match Text.splitOnce ':' content with
  | none => none
  | some (name, description) =>
    if ':' ∈ description ∨ Text.trim name = [] then none else some (Text.trim name, Text.trim description)

namespace Reader

/-- A reader at the beginning of a file. -/
def start (c : Catalogue) (items : List Item) : Reader := ⟨c, .ofList items, none, false, []⟩

/-- Record warnings. -/
def warn (r : Reader) (ws : List Warning) : Reader :=
  { r with catalogue := r.catalogue.warn ws, notices := r.notices ++ ws.map .warning }

/-- Take the next item; what there is to report about it is reported when it comes from the stream. -/
def pull (r : Reader) : Option Item × Reader :=
  let (item, items) := r.items.next
  let fresh := if r.items.buffer.isEmpty then (item.map Item.notices).getD [] else []
  (item, { r with items := items, notices := r.notices ++ fresh })

/-- Take the attributes that come next.  The item behind them has then been looked at. -/
def takeAttributes (r : Reader) : Attributes × Reader :=
  let g := gather [Tag.declares] r.catalogue.knownTags r.items
  let r := { r with items := g.rest }.warn g.warnings
  (g.attributes, { r with notices := r.notices ++ g.rest.buffer.flatMap Item.notices })

/-- The reader after an error. -/
def fail (r : Reader) (e : ReadError) : Option (Except ReadError Event) × Reader :=
  (some (.error e), { r with failed := true })

/-- A section tag. -/
def readSection (r : Reader) (b : Block) : Option (Except ReadError Event) × Reader :=
  match sectionHead? b.content with
  | none => r.fail (.malformedSection b.content b.loc)
  | some (name, description) =>
    let (attributes, r) := r.takeAttributes
    match r.catalogue.declare name ⟨description, attributes, b.loc⟩ with
    | .error e => r.fail e
    | .ok c => (some (.ok (.declared name)), { r with catalogue := c, current := some name })

/-- The attributes that a symbol of the named section inherits. -/
def inherited (c : Catalogue) (name : Text) : Attributes :=
  ((c.sections.find? name).map Section.attributes).getD .empty

/-- A definition within a section, whose own attributes have been read. -/
def addSymbol (r : Reader) (d : Definition) (loc : Location) (owner : Text) (own : Attributes) :
    Option (Except ReadError Event) × Reader :=
  match NomenclatureEntry.read? ((own.find? Tag.entry).getD []) with
  | none => r.fail (.malformedNomenclature ((own.find? Tag.entry).getD []) loc)
  | some nomenclature =>
    match r.catalogue.symbols.find? d.command with
    | some earlier => r.fail (.duplicateSymbol d.command loc earlier.loc)
    | none =>
      let above := inherited r.catalogue owner
      let r := r.warn (above.disagreements d.command loc own)
      let s : Symbol :=
        { d with
          synonyms := []
          owner := owner
          sample := own.find? Tag.sample
          nomenclature := nomenclature
          attributes := above.inherit own
          loc := loc
          order := r.catalogue.nextOrder }
      (some (.ok (.defined d.command)), { r with catalogue := r.catalogue.register s })

/-- A definition. -/
def readDefinition (r : Reader) (d : Definition) (loc : Location) : Option (Except ReadError Event) × Reader :=
  match r.current with
  | none => r.fail (.noSection loc)
  | some owner =>
    let (own, r) := r.takeAttributes
    r.addSymbol d loc owner own

theorem length_pull_lt {r : Reader} (h : r.pull.1.isSome) :
    r.pull.2.items.toList.length < r.items.toList.length :=
  r.items.length_next_lt h

/-- One pull: the next event or error, `none` at the end of the file and after an error. -/
def next (r : Reader) : Option (Except ReadError Event) × Reader :=
  if r.failed then (none, r)
  else
    match _h : r.pull with
    | (none, r) => (none, r)
    | (some (.error e), r) => r.fail e
    | (some (.ok (.passthrough line loc)), r) => (some (.ok (.passthrough line loc)), r)
    | (some (.ok (.definition d loc)), r) => r.readDefinition d loc
    | (some (.ok (.block b)), r') =>
      if b.tag = Tag.declares then r'.readSection b else (r'.warn [.floatingTag b.tag b.loc]).next
termination_by r.items.toList.length
decreasing_by
  have := length_pull_lt (r := r) (by rw [_h]; rfl)
  rwa [_h] at this

end Reader

/-- What a number of pulls gave. -/
structure Reading where
  events : List Event
  error : Option ReadError
  reader : Reader

/-- At most `n` pulls, up to the first error. -/
def Reader.take : Nat → Reader → Reading
  | 0, r => ⟨[], none, r⟩
  | n + 1, r =>
    match r.next with
    | (none, r) => ⟨[], none, r⟩
    | (some (.error e), r) => ⟨[], some e, r⟩
    | (some (.ok event), r) =>
      let rest := r.take n
      { rest with events := event :: rest.events }

/-- Read a file into the catalogue, with at most `limit` pulls if there is a limit.  Every pull that yields
something takes an item, so one pull per item, and one more, reach the end. -/
def Catalogue.read (c : Catalogue) (file text : Text) (limit : Option Nat) : Reading :=
  let items := Token.stream file text
  (Reader.start c items).take (limit.getD (items.length + 1))

end TexSymbols

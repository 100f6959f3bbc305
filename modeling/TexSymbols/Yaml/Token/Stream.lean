import TexSymbols.Yaml.Block
import TexSymbols.Yaml.Plain
import TexSymbols.Yaml.Token

/-!
# The tokens of a text

Collections in block style are told by columns: a collection begins where an entry or a key stands further to the right
than the innermost open one, and ends before the first token further to the left.  That a text is a key shows only at
the colon behind it, so the last place where a key may have begun is remembered until then.

* `Yaml.KeyStart` — a place where a key may have begun.  A key ends on its line, at most `keyLimit` characters behind.
* `Yaml.Lexer` — the tokens so far, the cursor behind them, the open collections and the remembered places.
* `Lexer.next?` — reads one more token; `Token.ofText?` reads all.
-/

namespace TexSymbols.Yaml

/-- A place where a key may have begun: the number of tokens before it, and its position.  The key is `required` if it
stands where the keys of the innermost open mapping stand. -/
structure KeyStart where
  place : Nat
  position : Position
  required : Bool

/-- The number of characters between the beginning of a key and its colon. -/
def keyLimit : Nat := 1024

/-- Whether a key that began at `k` may still end at the position. -/
def KeyStart.isOpenAt (k : KeyStart) (p : Position) : Bool :=
  k.position.line = p.line && p.column ≤ k.position.column + keyLimit

/-- What is known between two tokens. -/
structure Lexer where
  cursor : Cursor
  /-- Whether a key may begin with the next token. -/
  keyAllowed : Bool
  /-- The last place where a key may have begun, in the innermost open brackets or braces. -/
  keyStart : Option KeyStart
  /-- The same for the brackets and braces around, up to the block style. -/
  outerStarts : List (Option KeyStart)
  /-- The columns of the open collections in block style, the innermost first. -/
  columns : List Nat
  tokens : Array Token

/-- The next token: blanks, comments and breaks are passed.  In block style a key may begin behind a break, and a tab may
not stand where one may begin.  A byte order mark may stand at the beginning of a line. -/
def toNextToken (flow keyAllowed comment : Bool) (p : Position) : Text → Bool × Cursor
  | [] => (keyAllowed, ⟨[], p⟩)
  | c :: r =>
    if isBreak c then toNextToken flow (keyAllowed || !flow) false (p.after c) r
    else if comment || c = '#' then toNextToken flow keyAllowed true (p.after c) r
    else if c = ' ' || c = '\t' && (flow || !keyAllowed) || c = '\ufeff' && p.column = 0 then
      toNextToken flow keyAllowed false (p.after c) r
    else (keyAllowed, ⟨c :: r, p⟩)

namespace Lexer

/-- Before the first token. -/
def start (t : Text) : Lexer := ⟨⟨t, .start⟩, true, none, [], [], #[]⟩

/-- Whether the cursor stands within brackets or braces. -/
def inFlow (l : Lexer) : Bool := !l.outerStarts.isEmpty

/-- The least column of what belongs to the innermost open collection in block style. -/
def margin (l : Lexer) : Nat := (l.columns.head?.map (· + 1)).getD 0

/-- The lexer with one more token. -/
def emit (l : Lexer) (t : Token) : Lexer := { l with tokens := l.tokens.push t }

/-- The lexer with one more token, read up to the cursor. -/
def emitTo (l : Lexer) (t : Token) (c : Cursor) : Lexer := { l.emit t with cursor := c }

/-- The lexer with one more token that is a mark of `width` characters. -/
def emitMark (l : Lexer) (t : Token) (width : Nat) : Lexer := l.emitTo t (l.cursor.skip width)

/-- The lexer with a token behind the first `place` ones. -/
def insert (l : Lexer) (place : Nat) (t : Token) : Lexer :=
  { l with tokens := l.tokens.insertIdxIfInBounds place t }

def allowKey (l : Lexer) (allowed : Bool) : Lexer := { l with keyAllowed := allowed }

/-- No key has begun; an error if one was required. -/
def forgetKey? (l : Lexer) : Option Lexer :=
  if l.keyStart.any KeyStart.required then none else some { l with keyStart := none }

/-- Forget a key that cannot end here any more. -/
def expireKey? (l : Lexer) : Option Lexer :=
  if l.keyStart.all fun k => k.isOpenAt l.cursor.position then some l else l.forgetKey?

/-- Remember that a key may begin here. -/
def rememberKey? (l : Lexer) : Option Lexer :=
  if l.keyAllowed then do
    let l ← l.forgetKey?
    let required := !l.inFlow && l.columns.head? == some l.cursor.column
    return { l with keyStart := some ⟨l.tokens.size, l.cursor.position, required⟩ }
  else some l

/-- A collection in block style begins with the token behind the first `place` ones, if it stands far enough to the
right. -/
def openBlock (l : Lexer) (t : Token) (column place : Nat) : Lexer :=
  if l.inFlow || column < l.margin then l else { l.insert place t with columns := column :: l.columns }

/-- The open collections in block style end down to the first one that is kept. -/
def closeBlocks (l : Lexer) (keep : Nat → Bool) : Lexer :=
  if l.inFlow then l
  else
    let closed := l.columns.takeWhile (!keep ·)
    { l with tokens := l.tokens ++ closed.map fun _ => Token.blockEnd, columns := l.columns.drop closed.length }

/-- A token of a line of its own: all collections in block style have ended. -/
def readLineToken? (l : Lexer) : Option Lexer := (l.closeBlocks fun _ => false).forgetKey?.map (·.allowKey false)

/-- A bracket or brace opens. -/
def openFlow? (l : Lexer) (t : Token) : Option Lexer := do
  let l ← l.rememberKey?
  return { (l.emitMark t 1).allowKey true with keyStart := none, outerStarts := l.keyStart :: l.outerStarts }

/-- A bracket or brace closes. -/
def closeFlow? (l : Lexer) (t : Token) : Option Lexer := do
  let l ← l.forgetKey?
  let l := (l.emitMark t 1).allowKey false
  match l.outerStarts with
  | [] => return l
  | outer :: outers => return { l with keyStart := outer, outerStarts := outers }

/-- A dash or a question mark before an entry or a key; in block style it stands where a key may begin. -/
def readEntryMark? (l : Lexer) (t collection : Token) : Option Lexer :=
  if !l.inFlow && !l.keyAllowed then none
  else do
    let l ← (l.openBlock collection l.cursor.column l.tokens.size).forgetKey?
    return l.emitMark t 1

/-- A colon: what was remembered was a key, or the colon stands where a key may begin. -/
def readColon? (l : Lexer) : Option Lexer :=
  match l.keyStart with
  | some k =>
    let l := (l.insert k.place .key).openBlock .blockMappingStart k.position.column k.place
    some { (l.emitMark .value 1).allowKey false with keyStart := none }
  | none =>
    if l.inFlow then some ((l.emitMark .value 1).allowKey false)
    else if l.keyAllowed then
      some (((l.openBlock .blockMappingStart l.cursor.column l.tokens.size).emitMark .value 1).allowKey true)
    else none

/-- A property or scalar with which a key may begin; `read` reads it up to a cursor. -/
def readContent? (l : Lexer) (read : Option (Token × Cursor)) : Option Lexer := do
  let l ← l.rememberKey?
  let (t, c) ← read
  return (l.emitTo t c).allowKey false

/-- What `read` reads behind a mark of one character, as the token that `f` makes of it. -/
def behindMark {α : Type} (l : Lexer) (f : α → Token) (read : Text → Option (α × Text)) :
    Option (Token × Cursor) :=
  let body := l.cursor.rest.tail
  (read body).map fun p => (f p.1, l.cursor.skip (1 + (body.length - p.2.length)))

/-- A plain scalar.  If line breaks follow, a key may begin behind them. -/
def readPlainScalar? (l : Lexer) : Option Lexer := do
  let l ← l.rememberKey?
  let s ← readPlain? l.inFlow l.margin .empty l.cursor.position l.cursor.rest
  return (l.emitTo (.scalar .plain s.text) s.cursor).allowKey s.atNewLine

/-- A scalar between quotes. -/
def readQuotedScalar? (l : Lexer) (read : Gap → Position → Text → Option (Text × Cursor)) : Option Lexer :=
  l.readContent? ((read .empty (l.cursor.position.right 1) l.cursor.rest.tail).map fun p => (.scalar .other p.1, p.2))

/-- A block scalar.  A key may begin behind it. -/
def readBlockScalar? (l : Lexer) : Option Lexer := do
  let l ← l.forgetKey?
  let (text, c) ← readBlock? l.margin l.cursor
  let form : Form := if l.cursor.rest.head? = some '|' then .literal else .other
  return (l.emitTo (.scalar form text) c).allowKey true

/-- A directive; `rest` is what follows its percent sign. -/
def readDirectiveToken? (l : Lexer) (rest : Text) : Option Lexer := do
  let l ← l.readLineToken?
  let (d, after) ← readDirective? rest
  return l.emitTo (.directive d) (l.cursor.skip (1 + (rest.length - after.length)))

/-- The token that begins at the cursor. -/
def read? (l : Lexer) : Option Lexer :=
  match l.cursor.rest with
  | [] => (l.closeBlocks fun _ => false).forgetKey?.map (·.emit .streamEnd)
  | c :: r =>
    let atLine := l.cursor.column = 0
    let isWord := endsWord r
    if atLine ∧ c = '%' then l.readDirectiveToken? r
    else if atLine ∧ startsWith "---" (c :: r) then l.readLineToken?.map (·.emitMark .documentStart 3)
    else if atLine ∧ startsWith "..." (c :: r) then l.readLineToken?.map (·.emitMark .documentEnd 3)
    else if c = '[' then l.openFlow? .flowSequenceStart
    else if c = '{' then l.openFlow? .flowMappingStart
    else if c = ']' then l.closeFlow? .flowSequenceEnd
    else if c = '}' then l.closeFlow? .flowMappingEnd
    else if c = ',' then l.forgetKey?.map fun l => (l.emitMark .comma 1).allowKey true
    else if c = '-' ∧ isWord then (l.readEntryMark? .entry .blockSequenceStart).map (·.allowKey true)
    else if c = '?' ∧ (l.inFlow ∨ isWord) then
      (l.readEntryMark? .key .blockMappingStart).map fun l => l.allowKey !l.inFlow
    else if c = ':' ∧ (l.inFlow ∨ isWord) then l.readColon?
    else if c = '*' then l.readContent? (l.behindMark .aliasOf readAnchor?)
    else if c = '&' then l.readContent? (l.behindMark .anchor readAnchor?)
    else if c = '!' then l.readContent? (l.behindMark .tag (readTag? l.inFlow))
    else if (c = '|' ∨ c = '>') ∧ !l.inFlow then l.readBlockScalar?
    else if c = '\'' then l.readQuotedScalar? readSingle?
    else if c = '"' then l.readQuotedScalar? readDouble?
    else if startsPlain l.inFlow (c :: r) then l.readPlainScalar?
    else none

/-- Reads one more token, and the ends of collections before it. -/
def next? (l : Lexer) : Option Lexer := do
  let (keyAllowed, cursor) := toNextToken l.inFlow l.keyAllowed false l.cursor.position l.cursor.rest
  let l ← { l with keyAllowed, cursor }.expireKey?
  (l.closeBlocks (· ≤ l.cursor.column)).read?

/-- Reads tokens up to the end of the text, in at most `n` steps. -/
def readAll? : Nat → Lexer → Option (List Token)
  | 0, _ => none
  | n + 1, l => do
    let l ← l.next?
    if l.tokens.back? = some .streamEnd then return l.tokens.toList else readAll? n l

end Lexer

/-- The tokens of a text.  Every step but the last one takes some of the text. -/
def Token.ofText? (t : Text) : Option (List Token) := (Lexer.start t).readAll? (t.length + 1)

end TexSymbols.Yaml

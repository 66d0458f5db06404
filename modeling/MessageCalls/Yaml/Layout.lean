import MessageCalls.Yaml.BlockText
import MessageCalls.Yaml.Property
import MessageCalls.Yaml.Scalar
/-!
# MessageCalls.Yaml.Layout

From text to tokens. Reading needs to know where it stands in the layout of a document: which block
collections are open and how far they are indented, how deep it is in flow collections, and which
token could turn out to be a key, since a key without a mark is known only by the colon behind it.

* `Layout.next?` reads one token; layout tokens for indentation that grows or falls come with it.
* `tokens?` reads a whole text.
-/

namespace MessageCalls.Yaml

/-- A token that is a key if a colon follows. -/
structure PendingKey where
  /-- Where the token stands. -/
  place : Place
  /-- How many tokens stand before it. -/
  index : Nat
  /-- A colon has to follow: the token stands where the block mapping has its keys. -/
  required : Bool

/-- A key reaches to a place: it stands on the same line, at most 1024 bytes before. -/
def PendingKey.reaches (k : PendingKey) (p : Place) : Bool :=
  k.place.line = p.line && p.offset ≤ k.place.offset + 1024

/-- A place in a document and the layout around it. -/
structure Layout where
  /-- The text that is left. -/
  cursor : Cursor
  /-- The tokens before the place, the last one first. -/
  tokens : List Token := []
  /-- The columns of the open block collections, the innermost first. -/
  indents : List Nat := []
  /-- The token that could be a key of the innermost flow collection, or of the block collection if
  there is none. -/
  key : Option PendingKey := none
  /-- Those of the collections around, one for each flow collection. -/
  outer : List (Option PendingKey) := []
  /-- A key may stand here. -/
  keys : Bool := true

namespace Layout

/-- The place is in a flow collection. -/
def flow (s : Layout) : Bool := !s.outer.isEmpty

/-- A further token, with the text that is left behind it. -/
def emit (s : Layout) (t : Token) (behind : Cursor) : Layout :=
  { s with tokens := t :: s.tokens, cursor := behind }

/-- A further token of so many characters. -/
def emitMark (s : Layout) (t : Token) (length : Nat) : Layout :=
  s.emit t (s.cursor.advance length)

/-! ### Keys -/

/-- No token before this place can be a key any more. -/
def dropKey? (s : Layout) : Option Layout :=
  if s.key.any (·.required) then none else some { s with key := none }

/-- The next token could be a key, if a key may stand here. -/
def saveKey? (s : Layout) : Option Layout :=
  if s.keys then do
    let s ← s.dropKey?
    let key : PendingKey :=
      { place := s.cursor.toPlace
        index := s.tokens.length
        required := !s.flow && s.indents.head? = some s.cursor.column }
    return { s with key := some key }
  else some s

/-- A token that could be a key, unless it does not reach to a place any more. -/
def reaching? (p : Place) (key : Option PendingKey) : Option (Option PendingKey) :=
  if key.all (·.reaches p) then some key
  else if key.any (·.required) then none
  else some none

/-- The first token from this place on. -/
def toToken? (s : Layout) : Option Layout := do
  let (keys, cursor) := gap s.flow s.keys false s.cursor.toPlace s.cursor.rest
  let key ← reaching? cursor.toPlace s.key
  let outer ← s.outer.mapM (reaching? cursor.toPlace)
  return { s with cursor, keys, key, outer }

/-! ### Indentation -/

/-- A block collection begins at a column, in front of the last `since` tokens, if it is indented
further than the one around it. -/
def indent (s : Layout) (column : Nat) (begins : Token) (since : Nat) : Layout :=
  if !s.flow && s.indents.head?.all (· < column) then
    { s with
      tokens := s.tokens.take since ++ begins :: s.tokens.drop since
      indents := column :: s.indents }
  else s

/-- The block collections end that are indented further than a column, or all of them if there is no
column. -/
def dedent (s : Layout) (column : Option Nat) : Layout :=
  if s.flow then s
  else
    let ending := s.indents.takeWhile fun indent => column.all (· < indent)
    { s with
      tokens := List.replicate ending.length .blockEnds ++ s.tokens
      indents := s.indents.drop ending.length }

/-- The column where further lines of a scalar begin at the earliest. -/
def textColumn (s : Layout) : Nat := s.indents.head?.elim 0 (· + 1)

/-! ### Marks and punctuation -/

/-- The block collections end in front of a mark of the document or a directive. -/
def close? (s : Layout) : Option Layout := do
  return { ← (s.dedent none).dropKey? with keys := false }

/-- A mark of the document. -/
def documentMark? (s : Layout) (t : Token) : Option Layout := do
  return (← s.close?).emitMark t 3

/-- A directive. -/
def readDirective? (s : Layout) : Option Layout := do
  let s ← s.close?
  let (directive, behind) ← directive? s.cursor
  return s.emit (.directive directive) behind

/-- A flow collection begins. It could be a key as a whole. -/
def openFlow? (s : Layout) (t : Token) : Option Layout := do
  let s ← s.saveKey?
  return { s.emitMark t 1 with key := none, outer := s.key :: s.outer, keys := true }

/-- A flow collection ends. -/
def closeFlow? (s : Layout) (t : Token) : Option Layout := do
  let s ← s.dropKey?
  return { s.emitMark t 1 with
    key := s.outer.head?.getD s.key
    outer := s.outer.tail
    keys := false }

/-- A comma. -/
def comma? (s : Layout) : Option Layout := do
  return { (← s.dropKey?).emitMark .comma 1 with keys := true }

/-- A mark at the head of an item or a key, where a key could stand in its place. A block collection
begins if the mark is indented further than those before. -/
def headMark? (s : Layout) (t begins : Token) : Option Layout := do
  guard (s.flow || s.keys)
  return (← (s.indent s.cursor.column begins 0).dropKey?).emitMark t 1

/-- The mark of an item. -/
def dash? (s : Layout) : Option Layout := do
  return { ← s.headMark? .dash .sequenceBegins with keys := true }

/-- The mark of a key. -/
def keyMark? (s : Layout) : Option Layout := do
  return { ← s.headMark? .key .mappingBegins with keys := !s.flow }

/-- A colon. It makes a key of the token that could be one; otherwise the key is an empty one or had
a mark. -/
def colon? (s : Layout) : Option Layout :=
  match s.key with
  | some key =>
    let since := s.tokens.length - key.index
    let marked := { s with tokens := s.tokens.take since ++ Token.key :: s.tokens.drop since }
    let begun := marked.indent key.place.column .mappingBegins (since + 1)
    some { begun.emitMark .value 1 with key := none, keys := false }
  | none => do
    guard (s.flow || s.keys)
    let begun := s.indent s.cursor.column .mappingBegins 0
    return { begun.emitMark .value 1 with keys := !s.flow }

/-! ### Nodes -/

/-- A token that could be a key, read at its place. -/
def keyed? (s : Layout) (read : Cursor → Option (Token × Cursor)) : Option Layout := do
  let s ← s.saveKey?
  let (t, behind) ← read s.cursor
  return { s.emit t behind with keys := false }

/-- An anchor or an alias. -/
def name? (s : Layout) (token : List Char → Token) : Option Layout :=
  s.keyed? fun c => (anchorName? (c.advance 1)).map fun (name, behind) => (token name, behind)

/-- A quoted scalar. -/
def quoted? (s : Layout) (text : Place → Space → List Char → Option (List Char × Cursor)) :
    Option Layout :=
  s.keyed? fun c =>
    let inside := c.advance 1
    (text inside.toPlace {} inside.rest).map fun (text, behind) => (.scalar .quoted text, behind)

/-- A plain scalar. A key may stand behind it if it ended behind a line break. -/
def plain? (s : Layout) : Option Layout := do
  let s ← s.saveKey?
  let (text, crossed, behind) ← plain s.flow s.textColumn s.cursor.toPlace {} s.cursor.rest
  return { s.emit (.scalar .plain text) behind with keys := crossed }

/-- A scalar set off as a block. It is no key, and a key may stand behind it. -/
def block? (s : Layout) (style : Style) : Option Layout := do
  let s ← s.dropKey?
  let (text, behind) ← blockText (style = .literal) s.indents.head? (s.cursor.advance 1)
  return { s.emit (.scalar style text) behind with keys := true }

/-! ### Documents -/

/-- The token at this place, which its first character tells. -/
def token? (s : Layout) : Option Layout :=
  match s.cursor.rest with
  | [] => none
  | '[' :: _ => s.openFlow? .leftBracket
  | ']' :: _ => s.closeFlow? .rightBracket
  | '\x7b' :: _ => s.openFlow? .leftBrace
  | '\x7d' :: _ => s.closeFlow? .rightBrace
  | ',' :: _ => s.comma?
  | '&' :: _ => s.name? .anchor
  | '*' :: _ => s.name? .alias
  | '!' :: _ => s.keyed? fun c => (tag? s.flow c).map fun (tag, behind) => (.tag tag, behind)
  | '"' :: _ => s.quoted? doubleQuoted
  | '\'' :: _ => s.quoted? singleQuoted
  | c :: rest =>
    if c = '-' && startsBlank rest then s.dash?
    else if c = '?' && (s.flow || startsBlank rest) then s.keyMark?
    else if c = ':' && (s.flow || startsBlank rest) then s.colon?
    else if c = '|' && !s.flow then s.block? .literal
    else if c = '>' && !s.flow then s.block? .folded
    else if startsPlain s.flow (c :: rest) then s.plain?
    else none

/-- The token at this place, or a mark or a directive at the head of a line. -/
def next? (s : Layout) : Option Layout :=
  if s.cursor.atMark startsDocument then s.documentMark? .documentBegins
  else if s.cursor.atMark endsDocument then s.documentMark? .documentEnds
  else if s.cursor.atMark (·.head? = some '%') then s.readDirective?
  else s.token?

/-- The tokens of a text from this place on, with the ones before it. Every token takes a character,
so that the length of the text is enough fuel. -/
def run? : Nat → Layout → Option (List Token)
  | 0, _ => none
  | fuel + 1, s => do
    let s ← s.toToken?
    if s.cursor.rest.isEmpty then return (← (s.dedent none).dropKey?).tokens.reverse
    run? fuel (← (s.dedent (some s.cursor.column)).next?)

end Layout

/-- The tokens of a text. -/
def tokens? (text : String) : Option (List Token) := do
  let cursor ← Cursor.start? text
  Layout.run? (cursor.rest.length + 1) { cursor }

end MessageCalls.Yaml

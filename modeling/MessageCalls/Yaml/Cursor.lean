/-!
# MessageCalls.Yaml.Cursor

A place in a text, the characters that mean something there, and the gaps between the tokens of a
document: blanks, comments and line breaks.

Indentation is counted in characters, and the reach of a key, which has to stand on the line of its
colon, in bytes; so a place has a line, a column and an offset.
-/

namespace MessageCalls.Yaml

/-! ### Characters -/

/-- A space or a tab. -/
def isBlank (c : Char) : Bool := c = ' ' || c = '\t'

/-- A character that ends a line. -/
def isBreak (c : Char) : Bool := c = '\n' || c = '\u2028' || c = '\u2029'

/-- A character of a name. -/
def isNameChar (c : Char) : Bool := c.isAlphanum || c = '_' || c = '-'

/-- The mark of byte order, which is passed over at the head of a line. -/
def isOrderMark (c : Char) : Bool := c = '\ufeff'

/-- A text is at its end, or starts with a blank or a line break. -/
def startsBlank : List Char → Bool
  | [] => true
  | c :: _ => isBlank c || isBreak c

/-- A text starts with the mark that begins a document. -/
def startsDocument : List Char → Bool
  | '-' :: '-' :: '-' :: rest => startsBlank rest
  | _ => false

/-- A text starts with the mark that ends a document. -/
def endsDocument : List Char → Bool
  | '.' :: '.' :: '.' :: rest => startsBlank rest
  | _ => false

/-- A text starts with either mark. -/
def startsMark (cs : List Char) : Bool := startsDocument cs || endsDocument cs

/-! ### Places -/

/-- A place between two characters of a text. -/
structure Place where
  /-- The number of line breaks before the place. -/
  line : Nat := 0
  /-- The number of characters before the place on its line. -/
  column : Nat := 0
  /-- The number of bytes before the place on its line. -/
  offset : Nat := 0

namespace Place

/-- The place behind a character that ends no line. -/
def past (p : Place) (c : Char) : Place :=
  { p with column := p.column + 1, offset := p.offset + c.utf8Size }

/-- The place behind characters of one line. -/
def pastAll (p : Place) (cs : List Char) : Place := cs.foldl past p

/-- The place behind a line break. -/
def nextLine (p : Place) : Place := { line := p.line + 1 }

end Place

/-- A place in a text and what follows it. -/
structure Cursor extends Place where
  /-- The text from the place on. -/
  rest : List Char

namespace Cursor

/-- The place behind so many characters of the same line. -/
def advance (c : Cursor) (count : Nat) : Cursor :=
  ⟨c.toPlace.pastAll (c.rest.take count), c.rest.drop count⟩

/-- The place has one of the marks of a document. -/
def atMark (c : Cursor) (mark : List Char → Bool) : Bool := c.column = 0 && mark c.rest

/-- The longest run of characters of a kind, and the place behind it. -/
def span (c : Cursor) (kind : Char → Bool) : List Char × Cursor :=
  let run := c.rest.takeWhile kind
  (run, c.advance run.length)

/-- The place behind the blanks of this line. -/
def skipBlanks (c : Cursor) : Cursor := (c.span isBlank).2

/-- The head of the next line, or the end of the text, if nothing but blanks and a comment is left
of this line. -/
def nextLine? (c : Cursor) : Option Cursor :=
  let c := c.skipBlanks
  let c := if c.rest.head? = some '#' then (c.span fun d => !isBreak d).2 else c
  match c.rest with
  | [] => some c
  | d :: rest => if isBreak d then some ⟨c.toPlace.nextLine, rest⟩ else none

end Cursor

/-! ### Gaps -/

/-- The first token behind a gap, and whether a key may stand there. `keys` tells whether one may
stand here and `comment` that a comment is being skipped. A tab never counts as indentation, so in
block context it is a blank only where no key may stand; a line break lets keys follow. -/
def gap (flow keys comment : Bool) (p : Place) : List Char → Bool × Cursor
  | [] => (keys, ⟨p, []⟩)
  | c :: rest =>
    if isBreak c then gap flow (keys || !flow) false p.nextLine rest
    else if comment || c = ' ' || (c = '\t' && (flow || !keys))
        || (isOrderMark c && p.column = 0) then
      gap flow keys comment (p.past c) rest
    else if c = '#' then gap flow keys true (p.past c) rest
    else (keys, ⟨p, c :: rest⟩)

/-! ### Whole texts -/

/-- A document may hold the character. -/
def isPrintable (c : Char) : Bool :=
  let n := c.toNat
  n = 0x09 || n = 0x0a || n = 0x0d || (0x20 ≤ n && n ≤ 0x7e) || n = 0x85
    || (0xa0 ≤ n && n ≤ 0xd7ff) || (0xe000 ≤ n && n ≤ 0xfffd) || 0x10000 ≤ n

/-- A text with the usual line breaks written in one way. -/
def plainBreaks : List Char → List Char
  | [] => []
  | '\r' :: '\n' :: rest => '\n' :: plainBreaks rest
  | c :: rest => (if c = '\r' || c = '\u0085' then '\n' else c) :: plainBreaks rest

/-- The start of a text; none if it holds a character that is not printable. -/
def Cursor.start? (text : String) : Option Cursor :=
  if text.toList.all isPrintable then some { rest := plainBreaks text.toList } else none

end MessageCalls.Yaml

import MessageCalls.Bytes
import MessageCalls.Yaml.Cursor
/-!
# MessageCalls.Yaml.Scalar

Scalars on the lines of a collection: plain ones, which end at the first character that means
something else, and quoted ones, which end at their closing quote. A line break inside a scalar
reads as a space, and further ones as line breaks.
-/

namespace MessageCalls.Yaml

/-! ### What stands between the words of a scalar -/

/-- The blanks and line breaks since the last word of a scalar. -/
structure Space where
  /-- A line break was passed. -/
  crossed : Bool := false
  /-- The first line break stands for a space. -/
  folded : Bool := false
  /-- What they leave in the text of the scalar as they are. -/
  kept : List Char := []

namespace Space

/-- The space behind an escaped line break. -/
def joined : Space := { crossed := true }

/-- A blank. -/
def blank (s : Space) (c : Char) : Space :=
  if s.crossed then s else { s with kept := s.kept ++ [c] }

/-- A line break. Only the usual one stands for a space. -/
def lineBreak (s : Space) (c : Char) : Space :=
  if s.crossed then { s with kept := s.kept ++ [c] }
  else if c = '\n' then { crossed := true, folded := true }
  else { crossed := true, kept := [c] }

/-- The text of the space in front of a word. -/
def text (s : Space) : List Char := if s.folded && s.kept.isEmpty then [' '] else s.kept

end Space

/-! ### Plain scalars -/

/-- The brackets and the comma of flow collections. -/
def isFlowIndicator (c : Char) : Bool :=
  c = ',' || c = '[' || c = ']' || c = '\x7b' || c = '\x7d'

/-- A character that starts no plain scalar. -/
def isIndicator (c : Char) : Bool := isFlowIndicator c || "#&*!|>'\"%@\x60".toList.contains c

/-- A plain scalar may start here. -/
def startsPlain (flow : Bool) : List Char → Bool
  | [] => false
  | c :: rest =>
    if c = '-' then !startsBlank rest
    else if c = '?' || c = ':' then !flow && !startsBlank rest
    else !(isBlank c || isBreak c || isIndicator c)

/-- A plain scalar ends in front of a character: a comment, a document mark, a line of lesser
indentation, a colon that ends a key, or a bracket or comma of a flow collection. -/
def endsPlain (flow : Bool) (indent : Nat) (p : Place) (space : Space) (c : Char)
    (rest : List Char) : Bool :=
  (c = '#' && (space.crossed || !space.kept.isEmpty))
    || (space.crossed && p.column = 0 && startsMark (c :: rest))
    || (space.crossed && !flow && p.column < indent)
    || (c = ':' && startsBlank rest)
    || (flow && isFlowIndicator c)

/-- A colon in front of an indicator, which has no place in a plain scalar of a flow collection. -/
def isStrayColon (flow : Bool) (c : Char) (rest : List Char) : Bool :=
  flow && c = ':' && rest.head?.any fun d => d = '?' || isFlowIndicator d

/-- The text of a plain scalar from a place inside it on, whether it ended behind a line break, and
the place where it ended. In block context its further lines are indented by at least `indent`, and
nowhere is a tab part of that indentation. -/
def plain (flow : Bool) (indent : Nat) (p : Place) (space : Space) :
    List Char → Option (List Char × Bool × Cursor)
  | [] => some ([], space.crossed, ⟨p, []⟩)
  | c :: rest =>
    if isBreak c then plain flow indent p.nextLine (space.lineBreak c) rest
    else if isBlank c then
      if c = '\t' && space.crossed && p.column < indent then none
      else plain flow indent (p.past c) (space.blank c) rest
    else if endsPlain flow indent p space c rest then some ([], space.crossed, ⟨p, c :: rest⟩)
    else if isStrayColon flow c rest then none
    else
      (plain flow indent (p.past c) {} rest).map fun (text, crossed, behind) =>
        (space.text ++ c :: text, crossed, behind)

/-! ### Quoted scalars -/

/-- The text of a single-quoted scalar whose opening quote has been read; a quote inside is written
twice. -/
def singleQuoted (p : Place) (space : Space) : List Char → Option (List Char × Cursor)
  | [] => none
  | '\'' :: '\'' :: rest =>
    (singleQuoted (p.pastAll ['\'', '\'']) {} rest).map fun (text, behind) =>
      (space.text ++ '\'' :: text, behind)
  | '\'' :: rest => some (space.text, ⟨p.past '\'', rest⟩)
  | c :: rest =>
    if isBreak c then singleQuoted p.nextLine (space.lineBreak c) rest
    else if isBlank c then singleQuoted (p.past c) (space.blank c) rest
    else if space.crossed && p.column = 0 && startsMark (c :: rest) then none
    else
      (singleQuoted (p.past c) {} rest).map fun (text, behind) =>
        (space.text ++ c :: text, behind)

/-- The character that a letter stands for behind a backslash. -/
def escaped? (c : Char) : Option Char :=
  match c with
  | '0' => some '\x00'
  | 'a' => some '\x07'
  | 'b' => some '\x08'
  | 't' | '\t' => some '\t'
  | 'n' => some '\n'
  | 'v' => some '\x0b'
  | 'f' => some '\x0c'
  | 'r' => some '\r'
  | 'e' => some '\x1b'
  | ' ' => some ' '
  | '"' => some '"'
  | '/' => some '/'
  | '\\' => some '\\'
  | 'N' => some '\u0085'
  | '_' => some '\u00a0'
  | 'L' => some '\u2028'
  | 'P' => some '\u2029'
  | _ => none

/-- The character with the number that hexadecimal digits spell. -/
def hexEscape? (digits : List Char) : Option Char := do
  let n ← hexNumber? digits
  if n.isValidChar then some (Char.ofNat n) else none

/-- The text of a double-quoted scalar whose opening quote has been read. A backslash escapes a
letter, the number of a character, or a line break, which then reads as nothing. -/
def doubleQuoted (p : Place) (space : Space) : List Char → Option (List Char × Cursor)
  | [] => none
  | '"' :: rest => some (space.text, ⟨p.past '"', rest⟩)
  | '\\' :: 'x' :: a :: b :: rest => do
    let c ← hexEscape? [a, b]
    let (text, behind) ← doubleQuoted (p.pastAll ['\\', 'x', a, b]) {} rest
    return (space.text ++ c :: text, behind)
  | '\\' :: 'u' :: a :: b :: c :: d :: rest => do
    let e ← hexEscape? [a, b, c, d]
    let (text, behind) ← doubleQuoted (p.pastAll ['\\', 'u', a, b, c, d]) {} rest
    return (space.text ++ e :: text, behind)
  | '\\' :: 'U' :: a :: b :: c :: d :: e :: f :: g :: h :: rest => do
    let i ← hexEscape? [a, b, c, d, e, f, g, h]
    let (text, behind) ← doubleQuoted (p.pastAll ['\\', 'U', a, b, c, d, e, f, g, h]) {} rest
    return (space.text ++ i :: text, behind)
  | '\\' :: e :: rest =>
    if isBreak e then
      (doubleQuoted p.nextLine .joined rest).map fun (text, behind) => (space.text ++ text, behind)
    else do
      let c ← escaped? e
      let (text, behind) ← doubleQuoted (p.pastAll ['\\', e]) {} rest
      return (space.text ++ c :: text, behind)
  | c :: rest =>
    if isBreak c then doubleQuoted p.nextLine (space.lineBreak c) rest
    else if isBlank c then doubleQuoted (p.past c) (space.blank c) rest
    else if space.crossed && p.column = 0 && startsMark (c :: rest) then none
    else
      (doubleQuoted (p.past c) {} rest).map fun (text, behind) =>
        (space.text ++ c :: text, behind)

end MessageCalls.Yaml

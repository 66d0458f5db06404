import MessageCalls.Yaml.Cursor
import MessageCalls.Yaml.Token
/-!
# MessageCalls.Yaml.Property

What may be said about a node in front of it, an anchor and a tag, and what may be said in front of
a document, the version of the format and the stems of tags.

A tag is a string of octets. Characters that have no place in one are written as `%` and two
hexadecimal digits for each octet of their encoding; the octet zero ends the tag.
-/

namespace MessageCalls.Yaml

/-- The octets of characters that have one octet each. -/
def octets (cs : List Char) : Bytes := cs.map fun c => UInt8.ofNat c.toNat

/-- The name of an anchor or an alias whose indicator has been read. -/
def anchorName? (c : Cursor) : Option (List Char × Cursor) :=
  let (name, behind) := c.span isNameChar
  let isOver :=
    startsBlank behind.rest || behind.rest.head?.any fun d => "?:,]\x7d%@\x60".toList.contains d
  if !name.isEmpty && isOver then some (name, behind) else none

/-! ### Tags -/

/-- A character stands for itself in a tag. Between angle brackets more characters do. -/
def isTagChar (bracketed : Bool) (c : Char) : Bool :=
  isNameChar c || ";/?:@&=+$.!~*'()".toList.contains c
    || (bracketed && (c = ',' || c = '[' || c = ']'))

/-- The number of octets that follow the first one in the encoding of a character. -/
def furtherOctets? (first : UInt8) : Option Nat :=
  if first < 0x80 then some 0
  else if 0xc0 ≤ first ∧ first < 0xe0 then some 1
  else if 0xe0 ≤ first ∧ first < 0xf0 then some 2
  else if 0xf0 ≤ first ∧ first < 0xf8 then some 3
  else none

/-- The octets of a tag from a place on. Of the character before it so many octets are `pending`;
they are escaped like its first one. -/
def tagOctets? (bracketed : Bool) (pending : Nat) (p : Place) :
    List Char → Option (Bytes × Cursor)
  | '%' :: a :: b :: rest => do
    let octet := UInt8.ofNat (← hexNumber? [a, b])
    let pending ←
      if pending = 0 then furtherOctets? octet
      else if 0x80 ≤ octet ∧ octet < 0xc0 then some (pending - 1)
      else none
    let (further, behind) ← tagOctets? bracketed pending (p.pastAll ['%', a, b]) rest
    return (octet :: further, behind)
  | c :: rest =>
    if pending ≠ 0 || c = '%' then none
    else if isTagChar bracketed c then
      (tagOctets? bracketed 0 (p.past c) rest).map fun (further, behind) =>
        (octets [c] ++ further, behind)
    else some ([], ⟨p, c :: rest⟩)
  | [] => if pending = 0 then some ([], ⟨p, []⟩) else none

/-- The part of a tag that characters already read and those from a place on make up. -/
def tagPart? (bracketed : Bool) (read : List Char) (c : Cursor) : Option (Bytes × Cursor) := do
  let (further, behind) ← tagOctets? bracketed 0 c.toPlace c.rest
  return ((octets read ++ further).takeWhile (· ≠ 0), behind)

/-- The part of a tag from a place on, which may not be empty. -/
def tagWhole? (bracketed : Bool) (c : Cursor) : Option (Bytes × Cursor) := do
  let (uri, behind) ← tagPart? bracketed [] c
  if behind.column = c.column then none else return (uri, behind)

/-- The tag at a place. -/
def tag? (flow : Bool) (c : Cursor) : Option (Tag × Cursor) := do
  let (name, behind) := (c.advance 1).span isNameChar
  let (tag, behind) ←
    match name, behind.rest with
    | [], '<' :: _ => do
      let (uri, behind) ← tagWhole? true (behind.advance 1)
      if behind.rest.head? = some '>' then some (Tag.whole uri, behind.advance 1) else none
    | _, '!' :: _ => do
      let (suffix, behind) ← tagWhole? false (behind.advance 1)
      some (.short ('!' :: (name ++ ['!'])) suffix, behind)
    | _, _ => do
      let (suffix, behind) ← tagPart? false name behind
      some (if suffix.isEmpty then .whole (octets ['!']) else .short ['!'] suffix, behind)
  if startsBlank behind.rest || (flow && behind.rest.head? = some ',') then some (tag, behind)
  else none

/-! ### Directives -/

/-- The digits at a place, of which there are at most nine, without leading zeros. -/
def versionPart? (c : Cursor) : Option (List Char × Cursor) :=
  let (digits, behind) := c.span Char.isDigit
  if digits.isEmpty || 9 < digits.length then none
  else some (digits.dropWhile (· = '0'), behind)

/-- The version of the format at a place. -/
def version? (c : Cursor) : Option (Directive × Cursor) := do
  let (major, point) ← versionPart? c
  guard (major = ['1'] && point.rest.head? = some '.')
  let (minor, behind) ← versionPart? (point.advance 1)
  guard (minor = ['1'] || minor = ['2'])
  return (.version, behind)

/-- A handle and the stem that it stands for, at a place. -/
def stem? (c : Cursor) : Option (Directive × Cursor) := do
  guard (c.rest.head? = some '!')
  let (name, behind) := (c.advance 1).span isNameChar
  let (handle, behind) ←
    if behind.rest.head? = some '!' then some ('!' :: (name ++ ['!']), behind.advance 1)
    else if name.isEmpty then some (['!'], behind)
    else none
  guard (behind.rest.head?.any isBlank)
  let (uri, behind) ← tagWhole? true behind.skipBlanks
  guard (startsBlank behind.rest)
  return (.stem handle uri, behind)

/-- The directive at a place, and the head of the next line. -/
def directive? (c : Cursor) : Option (Directive × Cursor) := do
  let (name, behind) := (c.advance 1).span isNameChar
  guard (startsBlank behind.rest)
  let (directive, behind) ←
    if name = "YAML".toList then version? behind.skipBlanks
    else if name = "TAG".toList then stem? behind.skipBlanks
    else none
  return (directive, ← behind.nextLine?)

end MessageCalls.Yaml

/-!
# MessageCalls.Json.Basic

JSON documents and their compact text.

A number that is a natural number in plain digits is read as one; any other number is kept as it
was written, since no record of this library holds such a number. A string literal that escapes an
unpaired surrogate is well formed but spells no text.
-/

namespace MessageCalls

/-- A JSON document. -/
inductive Json
  | null
  | bool (value : Bool)
  /-- A number written in plain digits. -/
  | natural (value : Nat)
  /-- Any other number, as it was written. -/
  | number (text : String)
  /-- A string; there is no text if the literal escapes an unpaired surrogate. -/
  | string (text : Option String)
  /-- A list of documents. -/
  | array (items : List Json)
  /-- Named documents, in the order of writing; names may be repeated. -/
  | object (fields : List (Option String × Json))

namespace Json

/-- A string that spells a text. -/
def text (s : String) : Json := .string (some s)

/-- Named documents. -/
def record (fields : List (String × Json)) : Json :=
  .object (fields.map fun f => (some f.1, f.2))

/-! ### Writing -/

/-- How a character is written inside a string: the quote, the backslash and the control characters
are escaped, and everything else stands for itself. -/
def escape (c : Char) : List Char :=
  match c with
  | '"' => ['\\', '"']
  | '\\' => ['\\', '\\']
  | '\x08' => ['\\', 'b']
  | '\x0c' => ['\\', 'f']
  | '\n' => ['\\', 'n']
  | '\r' => ['\\', 'r']
  | '\t' => ['\\', 't']
  | c =>
    if c.toNat < 0x20 then
      ['\\', 'u', '0', '0', Nat.digitChar (c.toNat / 16), Nat.digitChar (c.toNat % 16)]
    else [c]

/-- A string literal. -/
def quoted (s : List Char) : List Char := '"' :: (s.flatMap escape ++ ['"'])

mutual

/-- The compact text of a document, as characters. -/
def chars : Json → List Char
  | null => "null".toList
  | bool true => "true".toList
  | bool false => "false".toList
  | natural n => Nat.toDigits 10 n
  | number text => text.toList
  | string text => quoted (text.getD "").toList
  | array items => '[' :: (itemChars items ++ [']'])
  | object fields => '\x7b' :: (fieldChars fields ++ ['\x7d'])

/-- The items of a list, with a comma between each two. -/
def itemChars : List Json → List Char
  | [] => []
  | [item] => chars item
  | item :: rest => chars item ++ ',' :: itemChars rest

/-- The fields of an object, with a comma between each two. -/
def fieldChars : List (Option String × Json) → List Char
  | [] => []
  | [(name, value)] => quoted (name.getD "").toList ++ ':' :: chars value
  | (name, value) :: rest =>
    quoted (name.getD "").toList ++ ':' :: (chars value ++ ',' :: fieldChars rest)

end

/-- The compact text of a document. -/
def compact (j : Json) : String := String.ofList j.chars

end Json

end MessageCalls

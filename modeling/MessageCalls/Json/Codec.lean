import MessageCalls.Json.Reader
import MessageCalls.Log
/-!
# MessageCalls.Json.Codec

How values are written as JSON documents and read back.

A `Codec` is a pair of a writer and a reader. A structure is written as an object with its fields
in the order of declaration, and read from an object in any order, with unknown fields ignored and
known ones not repeated, or from the list of its fields. A value of an enumeration is written as
its tag, or as an object whose only field is the tag if it carries something.
-/

namespace MessageCalls

/-- A way to write values of a type as documents and to read them. -/
structure Codec (α : Type) where
  /-- The document of a value. -/
  write : α → Json
  /-- The value of a document, if it has one. -/
  read? : Json → Option α

namespace Json

/-- The documents of named fields, in the order of the names. A document may be a list of the
fields in that order; it is complete unless `short` allows it to end early. -/
def fields? (names : List String) (short : Bool) : Json → Option (List (Option Json))
  | .object fields =>
    if fields.all fun f => f.1.isSome then
      names.mapM fun name =>
        match fields.filter fun f => f.1 = some name with
        | [] => some none
        | [f] => some (some f.2)
        | _ => none
    else none
  | .array items =>
    if items.length = names.length ∨ (short ∧ items.length < names.length) then
      some (items.map some ++ List.replicate (names.length - items.length) none)
    else none
  | _ => none

/-- The tag of a value of an enumeration and the document of what it carries, if there is one. -/
def variant? : Json → Option (String × Option Json)
  | .string (some tag) => some (tag, none)
  | .object [(some tag, carried)] => some (tag, some carried)
  | _ => none

/-- A value of an enumeration carries nothing. -/
def carriesNothing : Option Json → Bool
  | none | some .null => true
  | _ => false

end Json

namespace Codec

/-- Natural numbers below a bound. -/
def below (bound : Nat) : Codec Nat where
  write n := .natural n
  read?
    | .natural n => if n < bound then some n else none
    | _ => none

/-- Numbers of 64 bits. -/
def uint64 : Codec UInt64 where
  write n := .natural n.toNat
  read? j := ((below (2 ^ 64)).read? j).map UInt64.ofNat

/-- Bytes as numbers. -/
def byte : Codec UInt8 where
  write n := .natural n.toNat
  read? j := ((below (2 ^ 8)).read? j).map UInt8.ofNat

/-- Truth values. -/
def flag : Codec Bool where
  write b := .bool b
  read?
    | .bool b => some b
    | _ => none

/-- Texts. -/
def text : Codec String where
  write s := .text s
  read?
    | .string s => s
    | _ => none

/-- Lists, item by item. -/
def list {α : Type} (item : Codec α) : Codec (List α) where
  write items := .array (items.map item.write)
  read?
    | .array items => items.mapM item.read?
    | _ => none

/-- Values that may be missing. -/
def option {α : Type} (value : Codec α) : Codec (Option α) where
  write
    | some x => value.write x
    | none => .null
  read?
    | .null => some none
    | j => (value.read? j).map some

/-- Byte strings as lists of numbers. -/
def bytes : Codec Bytes := list byte

/-- The hexadecimal digits of a text, after the mark `0x` if it has one. -/
def hexPart (s : String) : List Char :=
  match s.toList with
  | '0' :: 'x' :: digits => digits
  | digits => digits

/-- The values of hexadecimal digits of either case. Blanks between them are passed over, and any
other character is refused. -/
def hexDigits? (cs : List Char) : Option (List Nat) :=
  (cs.filter fun c => !Json.isBlank c).mapM hexValue?

/-- The bytes that pairs of digits spell. A last digit without a partner fills no byte. -/
def bytesOfPairs : List Nat → Bytes
  | high :: low :: rest => UInt8.ofNat (16 * high + low) :: bytesOfPairs rest
  | _ => []

/-- The bytes that a text of hexadecimal digits fills. Where the text has an odd length, blanks
included, the first digit has a byte to itself. -/
def hexBytes? (cs : List Char) : Option Bytes := do
  let digits ← hexDigits? cs
  return bytesOfPairs (if cs.length % 2 = 0 then digits else 0 :: digits)

/-- The bytes that a text of exactly two characters a byte fills, from the left; a byte that
blanks leave unfilled is zero. -/
def exactly? (width : Nat) (s : String) : Option Bytes := do
  guard ((hexPart s).length = 2 * width)
  return (← hexBytes? (hexPart s)).rightpad width 0

/-- Addresses as exactly 40 hexadecimal digits. -/
def address : Codec Address where
  write a := .text (Address.text a)
  read?
    | .string (some s) => (exactly? 20 s).map Address.ofBytes
    | _ => none

/-- The word of a text of exactly 64 hexadecimal digits. -/
def wordOfText? (s : String) : Option Word := (exactly? 32 s).map Word.ofBytes

/-- Words as exactly 64 hexadecimal digits. -/
def word : Codec Word where
  write w := .text (Word.text w)
  read?
    | .string (some s) => wordOfText? s
    | _ => none

/-- Amounts as 1 to 64 hexadecimal digits, written without leading zeros. -/
def amount : Codec Amount where
  write v := .text ("0x" ++ String.ofList (Nat.toDigits 16 v.toNat))
  read?
    | .string (some s) => do
      guard (hexPart s ≠ [] ∧ (hexPart s).length ≤ 64)
      return BitVec.ofNat 256 (← hexBytes? (hexPart s)).toNat
    | _ => none

/-- Storage as an object, written in the order of the keys; of a key that is repeated the last
value counts. -/
def storage : Codec Storage where
  write s := .record (s.toList.map fun (key, value) => (Word.text key, word.write value))
  read?
    | .object fields =>
      fields.foldlM (fun s (name, value) => do
        return s.insert (← wordOfText? (← name)) (← word.read? value)) ∅
    | _ => none

end Codec

end MessageCalls

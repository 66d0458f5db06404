import MessageCalls.Bytes
/-!
# MessageCalls.Rlp

The recursive length form of byte strings and lists: a header that tells the kind and the length,
then the contents. A single byte below `0x80` is its own form, and a number is the byte string of
its base-256 digits without leading zeros.
-/

namespace MessageCalls.Rlp

/-- The base-256 digits of a number, most significant first, without leading zeros. -/
def digits (n : Nat) : Bytes :=
  if n = 0 then [] else digits (n / 256) ++ [UInt8.ofNat n]

/-- The header of contents of a given length; `base` is `0x80` for strings and `0xc0` for lists. -/
def header (base length : Nat) : Bytes :=
  if length ≤ 55 then [UInt8.ofNat (base + length)]
  else
    let spelled := digits length
    UInt8.ofNat (base + 55 + spelled.length) :: spelled

/-- The form of a byte string. -/
def string (contents : Bytes) : Bytes :=
  match contents with
  | [b] => if b < 0x80 then [b] else header 0x80 1 ++ [b]
  | _ => header 0x80 contents.length ++ contents

/-- The form of a number. -/
def number (n : Nat) : Bytes := string (digits n)

/-- The form of a list whose items are already in their forms. -/
def list (items : List Bytes) : Bytes :=
  let contents := items.flatten
  header 0xc0 contents.length ++ contents

end MessageCalls.Rlp

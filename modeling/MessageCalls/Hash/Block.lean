import MessageCalls.Word
/-!
# MessageCalls.Hash.Block

What the block-wise hash functions share: cutting a message into blocks, reading machine words from
bytes in either order, and the padding that ends a message with its length.
-/

namespace MessageCalls.Hash

/-- The consecutive blocks of `size` bytes of a message; a shorter rest is the last block. -/
def blocks (size : Nat) (message : Bytes) : List Bytes :=
  if size = 0 ∨ message = [] then []
  else message.take size :: blocks size (message.drop size)
termination_by message.length
decreasing_by
  rename_i h
  have hpos : 0 < message.length := List.length_pos_iff.2 fun hm => h (Or.inr hm)
  simp only [List.length_drop]
  omega

/-- The number spelled by bytes whose least significant one comes first. -/
def littleEndianNat (bytes : Bytes) : Nat := Bytes.toNat bytes.reverse

/-- The last `width` bytes of a number, least significant first. -/
def littleEndian (width n : Nat) : Bytes := (bigEndian width n).reverse

/-- A message, the bit that ends it, and as many zero bits as leave eight bytes of a 64-byte block
for the length of the message in bits, written by `spell`. -/
def padded (spell : Nat → Nat → Bytes) (message : Bytes) : Bytes :=
  message ++ [0x80] ++ List.replicate ((119 - message.length % 64) % 64) 0
    ++ spell 8 (8 * message.length)

/-- A 32-bit word rotated to the left. -/
def rotateLeft32 (x : UInt32) (n : UInt32) : UInt32 := (x <<< n) ||| (x >>> (32 - n))

/-- A 64-bit word rotated to the left; an amount of zero leaves it alone. -/
def rotateLeft64 (x : UInt64) (n : UInt64) : UInt64 :=
  if n = 0 then x else (x <<< n) ||| (x >>> (64 - n))

end MessageCalls.Hash

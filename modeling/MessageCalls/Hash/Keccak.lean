import MessageCalls.Hash.Block
/-!
# MessageCalls.Hash.Keccak

Keccak-256 with the padding `01 … 80`: a sponge of 25 lanes of 64 bits that absorbs 136 bytes at a
time. The lane at column `x` and row `y` has the index `x + 5 * y`.
-/

namespace MessageCalls.Hash.Keccak

/-- The state of the sponge. -/
abbrev Lanes := Vector UInt64 25

/-- The number of message bytes absorbed by one permutation. -/
def rate : Nat := 136

/-- The constants that break the symmetry of the rounds. -/
def roundConstants : List UInt64 :=
  [0x0000000000000001, 0x0000000000008082, 0x800000000000808a, 0x8000000080008000,
   0x000000000000808b, 0x0000000080000001, 0x8000000080008081, 0x8000000000008009,
   0x000000000000008a, 0x0000000000000088, 0x0000000080008009, 0x000000008000000a,
   0x000000008000808b, 0x800000000000008b, 0x8000000000008089, 0x8000000000008003,
   0x8000000000008002, 0x8000000000000080, 0x000000000000800a, 0x800000008000000a,
   0x8000000080008081, 0x8000000000008080, 0x0000000080000001, 0x8000000080008008]

/-- How far each lane is rotated. -/
def offsets : Vector UInt64 25 :=
  #v[ 0,  1, 62, 28, 27,
     36, 44,  6, 55, 20,
      3, 10, 43, 25, 39,
     41, 45, 15, 21,  8,
     18,  2, 61, 56, 14]

/-- The lane at column `x` and row `y`, both taken modulo five. -/
def lane (a : Lanes) (x y : Nat) : UInt64 :=
  a.get ⟨x % 5 + 5 * (y % 5), by omega⟩

/-- Every lane takes in the parity of two neighbouring columns. -/
def mixColumns (a : Lanes) : Lanes :=
  let parity : Vector UInt64 5 := Vector.ofFn fun x =>
    lane a x 0 ^^^ lane a x 1 ^^^ lane a x 2 ^^^ lane a x 3 ^^^ lane a x 4
  Vector.ofFn fun i =>
    a[i] ^^^ parity.get ⟨(i.val + 4) % 5, by omega⟩
      ^^^ rotateLeft64 (parity.get ⟨(i.val + 1) % 5, by omega⟩) 1

/-- Every lane is rotated and moved: the lane at `(x, y)` comes from column `x + 3 y` of row
`x`. -/
def rotateAndMove (a : Lanes) : Lanes :=
  Vector.ofFn fun i =>
    let x := i.val % 5
    let y := i.val / 5
    rotateLeft64 (lane a (x + 3 * y) x) (lane offsets (x + 3 * y) x)

/-- Every lane takes in a product of the two lanes that follow it in its row. -/
def mixRows (a : Lanes) : Lanes :=
  Vector.ofFn fun i =>
    let x := i.val % 5
    let y := i.val / 5
    a[i] ^^^ (~~~ lane a (x + 1) y &&& lane a (x + 2) y)

/-- One round. -/
def round (a : Lanes) (constant : UInt64) : Lanes :=
  let b := mixRows (rotateAndMove (mixColumns a))
  b.set 0 (b[0] ^^^ constant)

/-- The permutation of the sponge. -/
def permute (a : Lanes) : Lanes := roundConstants.foldl round a

/-- The message with the bits that end it; the last of them ends a block. -/
def pad (message : Bytes) : Bytes :=
  let room := rate - message.length % rate
  if room = 1 then message ++ [0x81]
  else message ++ [0x01] ++ List.replicate (room - 2) 0 ++ [0x80]

/-- One block is added into the first lanes, and the state is permuted. -/
def absorb (a : Lanes) (block : Bytes) : Lanes :=
  let words := (blocks 8 block).map fun w => UInt64.ofNat (littleEndianNat w)
  permute (Vector.ofFn fun i => a[i] ^^^ words.getD i 0)

/-- The Keccak-256 hash of a message. -/
def digest (message : Bytes) : Word :=
  let a := (blocks rate (pad message)).foldl absorb (Vector.replicate 25 0)
  Word.ofBytes ((a.toList.take 4).flatMap fun w => littleEndian 8 w.toNat)

end MessageCalls.Hash.Keccak

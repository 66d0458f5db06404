import MessageCalls.Hash.Block
/-!
# MessageCalls.Hash.Ripemd160

RIPEMD-160: five words of 32 bits, two lines of 80 steps for each block of 64 bytes. The digest has
the 160 bits of an `Address`.
-/

namespace MessageCalls.Hash.Ripemd160

/-- The chaining state. -/
structure Chain where
  a : UInt32
  b : UInt32
  c : UInt32
  d : UInt32
  e : UInt32

/-- The state before the first block. -/
def start : Chain := ⟨0x67452301, 0xefcdab89, 0x98badcfe, 0x10325476, 0xc3d2e1f0⟩

/-- The mixing functions of the five groups of steps. -/
def mix (group : Nat) (x y z : UInt32) : UInt32 :=
  match group with
  | 0 => x ^^^ y ^^^ z
  | 1 => (x &&& y) ||| (~~~ x &&& z)
  | 2 => (x ||| ~~~ y) ^^^ z
  | 3 => (x &&& z) ||| (y &&& ~~~ z)
  | _ => x ^^^ (y ||| ~~~ z)

/-- One of the two lines of steps. -/
structure Line where
  /-- The constant added in each group of sixteen steps. -/
  constants : List UInt32
  /-- The mixing function of each group. -/
  mixing : List Nat
  /-- The word of the block that each step reads. -/
  order : List Nat
  /-- How far each step rotates. -/
  shifts : List UInt32

/-- The left line. -/
def left : Line where
  constants := [0x00000000, 0x5a827999, 0x6ed9eba1, 0x8f1bbcdc, 0xa953fd4e]
  mixing := [0, 1, 2, 3, 4]
  order :=
    [0, 1, 2, 3, 4, 5, 6, 7, 8, 9, 10, 11, 12, 13, 14, 15,
     7, 4, 13, 1, 10, 6, 15, 3, 12, 0, 9, 5, 2, 14, 11, 8,
     3, 10, 14, 4, 9, 15, 8, 1, 2, 7, 0, 6, 13, 11, 5, 12,
     1, 9, 11, 10, 0, 8, 12, 4, 13, 3, 7, 15, 14, 5, 6, 2,
     4, 0, 5, 9, 7, 12, 2, 10, 14, 1, 3, 8, 11, 6, 15, 13]
  shifts :=
    [11, 14, 15, 12, 5, 8, 7, 9, 11, 13, 14, 15, 6, 7, 9, 8,
     7, 6, 8, 13, 11, 9, 7, 15, 7, 12, 15, 9, 11, 7, 13, 12,
     11, 13, 6, 7, 14, 9, 13, 15, 14, 8, 13, 6, 5, 12, 7, 5,
     11, 12, 14, 15, 14, 15, 9, 8, 9, 14, 5, 6, 8, 6, 5, 12,
     9, 15, 5, 11, 6, 8, 13, 12, 5, 12, 13, 14, 11, 8, 5, 6]

/-- The right line. -/
def right : Line where
  constants := [0x50a28be6, 0x5c4dd124, 0x6d703ef3, 0x7a6d76e9, 0x00000000]
  mixing := [4, 3, 2, 1, 0]
  order :=
    [5, 14, 7, 0, 9, 2, 11, 4, 13, 6, 15, 8, 1, 10, 3, 12,
     6, 11, 3, 7, 0, 13, 5, 10, 14, 15, 8, 12, 4, 9, 1, 2,
     15, 5, 1, 3, 7, 14, 6, 9, 11, 8, 12, 2, 10, 0, 4, 13,
     8, 6, 4, 1, 3, 11, 15, 0, 5, 12, 2, 13, 9, 7, 10, 14,
     12, 15, 10, 4, 1, 5, 8, 7, 6, 2, 13, 14, 0, 3, 9, 11]
  shifts :=
    [8, 9, 9, 11, 13, 15, 15, 5, 7, 7, 8, 11, 14, 14, 12, 6,
     9, 13, 15, 7, 12, 8, 9, 11, 7, 7, 12, 7, 6, 15, 13, 11,
     9, 7, 15, 11, 8, 6, 6, 14, 12, 13, 5, 14, 13, 13, 7, 5,
     15, 5, 8, 11, 14, 14, 6, 14, 6, 9, 12, 9, 12, 5, 15, 8,
     8, 5, 12, 9, 12, 5, 14, 6, 8, 13, 6, 5, 15, 13, 11, 11]

/-- One step of a line, at its place: the step's number, the word it adds, and how far it
rotates. -/
def step (line : Line) (words : Array UInt32) (s : Chain) (place : Nat × Nat × UInt32) : Chain :=
  let (t, word, shift) := place
  let group := t / 16
  let sum := s.a + mix (line.mixing.getD group 0) s.b s.c s.d + words.getD word 0
    + line.constants.getD group 0
  ⟨s.e, rotateLeft32 sum shift + s.e, s.b, rotateLeft32 s.c 10, s.d⟩

/-- The eighty steps of a line. -/
def Line.run (line : Line) (words : Array UInt32) (s : Chain) : Chain :=
  ((List.range 80).zip (line.order.zip line.shifts)).foldl (step line words) s

/-- One block is worked into the state. -/
def compress (s : Chain) (block : Bytes) : Chain :=
  let words := ((blocks 4 block).map fun w => UInt32.ofNat (littleEndianNat w)).toArray
  let l := left.run words s
  let r := right.run words s
  ⟨s.b + l.c + r.d, s.c + l.d + r.e, s.d + l.e + r.a, s.e + l.a + r.b, s.a + l.b + r.c⟩

/-- The RIPEMD-160 hash of a message. -/
def digest (message : Bytes) : Address :=
  let s := (blocks 64 (padded littleEndian message)).foldl compress start
  Address.ofBytes ([s.a, s.b, s.c, s.d, s.e].flatMap fun w => littleEndian 4 w.toNat)

end MessageCalls.Hash.Ripemd160

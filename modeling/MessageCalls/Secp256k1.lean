import MessageCalls.Word
/-!
# MessageCalls.Secp256k1

The curve `y² = x³ + 7` over the prime field of secp256k1, and the recovery of the public key that
signed a message.

Points are kept in Jacobian coordinates, so that a multiple of a point costs one division in the
field. **A key is recovered only from a canonical signature**: both numbers are below the order of
the group and not zero, and the first names a point.
-/

namespace MessageCalls.Secp256k1

/-- The size of the field. -/
def fieldSize : Nat := 2 ^ 256 - 2 ^ 32 - 977

/-- The order of the group. -/
def groupOrder : Nat := 0xfffffffffffffffffffffffffffffffebaaedce6af48a03bbfd25e8cd0364141

/-- A power modulo `m`, by squaring. -/
def powMod (m base : Nat) : Nat → Nat
  | 0 => 1 % m
  | e + 1 =>
    let half := powMod m base ((e + 1) / 2)
    let square := half * half % m
    if (e + 1) % 2 = 1 then square * base % m else square
decreasing_by omega

/-- The inverse of a number modulo a prime `m`. -/
def inverse (m a : Nat) : Nat := powMod m a (m - 2)

/-! ### The field -/

/-- The sum of two field elements. -/
def addF (a b : Nat) : Nat := (a + b) % fieldSize

/-- The difference of two field elements, both reduced. -/
def subF (a b : Nat) : Nat := (a + fieldSize - b) % fieldSize

/-- The product of two field elements. -/
def mulF (a b : Nat) : Nat := a * b % fieldSize

/-- A square root in the field, if there is one. -/
def sqrt? (a : Nat) : Option Nat :=
  let root := powMod fieldSize a ((fieldSize + 1) / 4)
  if mulF root root = a then some root else none

/-! ### The group -/

/-- A point with affine coordinates `x / z²` and `y / z³`; the neutral element has `z = 0`. -/
structure Point where
  x : Nat
  y : Nat
  z : Nat

namespace Point

/-- The neutral element. -/
def zero : Point := ⟨1, 1, 0⟩

/-- The generator of the group. -/
def generator : Point where
  x := 0x79be667ef9dcbbac55a06295ce870b07029bfcdb2dce28d959f2815b16f81798
  y := 0x483ada7726a3c4655da4fbfc0e1108a8fd17b448a68554199c47d08ffb10d4b8
  z := 1

/-- Twice a point. -/
def double (p : Point) : Point :=
  if p.z = 0 ∨ p.y = 0 then zero
  else
    let a := mulF p.x p.x
    let b := mulF p.y p.y
    let c := mulF b b
    let t := addF p.x b
    let d := mulF 2 (subF (subF (mulF t t) a) c)
    let e := mulF 3 a
    let x := subF (mulF e e) (mulF 2 d)
    ⟨x, subF (mulF e (subF d x)) (mulF 8 c), mulF 2 (mulF p.y p.z)⟩

/-- The sum of two points. -/
def add (p q : Point) : Point :=
  if p.z = 0 then q
  else if q.z = 0 then p
  else
    let pz := mulF p.z p.z
    let qz := mulF q.z q.z
    let u := mulF p.x qz
    let v := mulF q.x pz
    let s := mulF p.y (mulF q.z qz)
    let t := mulF q.y (mulF p.z pz)
    if u = v then
      if s = t then double p else zero
    else
      let h := subF v u
      let r := subF t s
      let hh := mulF h h
      let hhh := mulF h hh
      let w := mulF u hh
      let x := subF (subF (mulF r r) hhh) (mulF 2 w)
      ⟨x, subF (mulF r (subF w x)) (mulF s hhh), mulF h (mulF p.z q.z)⟩

/-- A multiple of a point. -/
def multiple (p : Point) : Nat → Point
  | 0 => zero
  | k + 1 =>
    let twice := double (multiple p ((k + 1) / 2))
    if (k + 1) % 2 = 1 then add twice p else twice
decreasing_by omega

/-- The affine coordinates of a point other than the neutral element. -/
def affine? (p : Point) : Option (Nat × Nat) :=
  if p.z = 0 then none
  else
    let i := inverse fieldSize p.z
    let ii := mulF i i
    some (mulF p.x ii, mulF p.y (mulF i ii))

/-- The point with a given abscissa whose ordinate is odd, or even. -/
def lift? (x : Nat) (odd : Bool) : Option Point := do
  let y ← sqrt? (addF (mulF x (mulF x x)) 7)
  return ⟨x, if (y % 2 = 1) = odd then y else subF 0 y, 1⟩

end Point

/-! ### Recovery -/

/-- The two numbers of a signature. -/
structure Signature where
  r : Nat
  s : Nat

/-- The signature spelled by 64 bytes, if both its numbers are below the order of the group. -/
def Signature.ofBytes? (bytes : Bytes) : Option Signature :=
  let r := Bytes.toNat (bytes.take 32)
  let s := Bytes.toNat (bytes.drop 32)
  if bytes.length = 64 ∧ r < groupOrder ∧ s < groupOrder then some ⟨r, s⟩ else none

/-- Two numbers below the order of the group are a signature, and 64 bytes spell it. -/
theorem Signature.ofBytes?_append {r s : Nat} (hr : r < groupOrder) (hs : s < groupOrder) :
    ofBytes? (bigEndian 32 r ++ bigEndian 32 s) = some ⟨r, s⟩ := by
  have hfirst : (bigEndian 32 r ++ bigEndian 32 s).take 32 = bigEndian 32 r :=
    List.take_left' (length_bigEndian 32 r)
  have hsecond : (bigEndian 32 r ++ bigEndian 32 s).drop 32 = bigEndian 32 s :=
    List.drop_left' (length_bigEndian 32 r)
  have hwidth : groupOrder ≤ 256 ^ 32 := by decide +kernel
  rw [ofBytes?, hfirst, hsecond, Bytes.toNat_bigEndian (Nat.lt_of_lt_of_le hr hwidth),
    Bytes.toNat_bigEndian (Nat.lt_of_lt_of_le hs hwidth)]
  exact if_pos ⟨by rw [List.length_append, length_bigEndian, length_bigEndian], hr, hs⟩

/-- Which of the points that fit the first number of a signature is meant. -/
structure PointChoice where
  /-- Its ordinate is odd. -/
  isOdd : Bool
  /-- Its abscissa has been reduced by the order of the group. -/
  isReduced : Bool

/-- The choice that a byte stands for: one of the first four. -/
def PointChoice.ofByte? (b : UInt8) : Option PointChoice :=
  if b < 4 then some ⟨b % 2 = 1, 2 ≤ b⟩ else none

/-- An uncompressed public key: a mark and the 64 bytes of the coordinates. -/
abbrev PublicKey := Vector UInt8 65

/-- The public key with the given coordinates. -/
def PublicKey.ofCoordinates (x y : Nat) : PublicKey :=
  ⟨(4 :: (bigEndian 32 x ++ bigEndian 32 y)).toArray, by simp⟩

/-- The public key that signed a message. -/
def recover? (message : Word) (sig : Signature) (choice : PointChoice) : Option PublicKey := do
  guard (0 < sig.r ∧ 0 < sig.s)
  let abscissa := if choice.isReduced then sig.r + groupOrder else sig.r
  guard (abscissa < fieldSize)
  let point ← Point.lift? abscissa choice.isOdd
  let inv := inverse groupOrder sig.r
  let z := message.toNat % groupOrder
  let u := (groupOrder - z) * inv % groupOrder
  let v := sig.s * inv % groupOrder
  let (x, y) ← ((Point.generator.multiple u).add (point.multiple v)).affine?
  return .ofCoordinates x y

end MessageCalls.Secp256k1

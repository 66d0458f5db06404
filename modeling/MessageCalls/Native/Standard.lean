import MessageCalls.Native.Basic
import MessageCalls.Native.Primitives
/-!
# MessageCalls.Native.Standard

The four native contracts at the addresses 1 to 4: recovery of the address that signed a message,
SHA-256, RIPEMD-160, and the identity. Each charges its linear price first, and **an output never
depends on the nrg limit**. Recovery does not fail: whatever it cannot recover gives no data.
-/

namespace MessageCalls

/-- The standard native contracts. -/
inductive Native
  /-- The address that signed a message. -/
  | recovery
  | sha256
  | ripemd160
  | identity
  deriving DecidableEq, Repr

namespace Native

/-- Where a contract lives. -/
def address : Native → Address
  | recovery => 1
  | sha256 => 2
  | ripemd160 => 3
  | identity => 4

/-- The contract at an address. -/
def at? (a : Address) : Option Native :=
  [recovery, sha256, ripemd160, identity].find? fun n => n.address = a

/-- The base price of a contract. -/
def base : Native → Nrg
  | recovery => 3000
  | sha256 => 60
  | ripemd160 => 600
  | identity => 15

/-- The price of each word of the input. -/
def word : Native → Nrg
  | recovery => 0
  | sha256 => 12
  | ripemd160 => 120
  | identity => 3

/-! ### Recovery of a signer -/

/-- The first 128 bytes of an input, in front of as many zeros as are missing. -/
def signedInput? (input : Bytes) : Option Bytes := do
  let known ← input.slice? 0 (min input.length 128)
  Bytes.overwrite? (List.replicate 128 0) 0 known

/-- How far a byte is above another one, if it is not below. -/
def stepsAbove? (b least : UInt8) : Option UInt8 := if least ≤ b then some (b - least) else none

/-- The data that recovery gives for an input: the address that signed the first word, behind twelve
zeros, or nothing. The second word is 27 or 28 and tells the choice among the keys, and the rest is
the signature. There would be no answer at all if a step went beyond its bounds. -/
def recovered? (p : Primitives) (input : Bytes) : Option Bytes := do
  let input ← signedInput? input
  let high ← input.slice? 32 63
  let v ← input[63]?
  if high ≠ List.replicate 31 0 ∨ v ∉ [27, 28] then return []
  let message ← input.slice? 0 32
  let numbers ← input.slice? 64 128
  let some signature := p.signature? numbers | return []
  let steps ← stepsAbove? v 27
  let some choice := p.choice? steps | return []
  let some key := p.recover? (Word.ofBytes message) signature choice | return []
  let coordinates ← Bytes.slice? key.toList 1 65
  Bytes.overwrite? (Word.toBytes (p.keccak coordinates)) 0 (List.replicate 12 0)

/-! ### All four -/

/-- Twelve zero bytes and an address. -/
def paddedAddress (a : Address) : Bytes := List.replicate 12 0 ++ Address.toBytes a

/-- The output of a contract. -/
def output (p : Primitives) (n : Native) (input : Bytes) : Bytes :=
  match n with
  | recovery => (recovered? p input).getD []
  | sha256 => Word.toBytes (p.sha256 input)
  | ripemd160 => paddedAddress (p.ripemd160 input)
  | identity => input

/-- A contract charges its price, and answers if the limit allows it. -/
def run (p : Primitives) (n : Native) (input : Bytes) (limit : Nrg) : NativeResult :=
  match linearCost (UInt64.ofNat input.length) n.base n.word with
  | .error halt => .error halt
  | .ok cost => if limit < cost then .error .outOfNrg else .ok ⟨n.output p input, cost⟩

end Native

/-- The set of the standard native contracts over some primitives. -/
def NativeSet.standardOver (p : Primitives) : NativeSet where
  run a input limit _ := (Native.at? a).map fun n => n.run p input limit
  isNative a := (Native.at? a).isSome
  isRecorded := true

/-- The set of the standard native contracts. -/
def NativeSet.standard : NativeSet := .standardOver .standard

end MessageCalls

import MessageCalls.Exit
import MessageCalls.Message
/-!
# MessageCalls.Native.Basic

Native contracts: code built into the machine at fixed addresses, consulted before any
interpreter, and the price most of them ask, linear in the length of the input.
-/

namespace MessageCalls

/-- What a native contract answers when it succeeds. -/
structure NativeOutput where
  output : Bytes
  cost : Nrg
  deriving DecidableEq

/-- What a native contract answers. A failure consumes all the nrg of the call. -/
abbrev NativeResult := Except Halt NativeOutput

/-- A set of native contracts. -/
structure NativeSet where
  /-- The answer of the contract at an address, if there is one, to an input under a limit of
  nrg. -/
  run : Address → Bytes → Nrg → Identity → Option NativeResult
  /-- There is a native contract at the address. -/
  isNative : Address → Bool
  /-- A run leaves a log record. -/
  isRecorded : Bool := false

/-- No native contracts. -/
def NativeSet.none : NativeSet where
  run _ _ _ _ := .none
  isNative _ := false

/-- The 32-byte words that a length takes up. The rounding saturates: within 31 of the largest
length a last, partial word is not counted. -/
def wordCount (length : UInt64) : UInt64 := Nrg.addSaturating length 31 / 32

/-- A base price and a price for every word of the input, if the sum is below `2 ^ 64`. -/
def linearCost (length base word : UInt64) : Except Halt Nrg :=
  match (Nrg.mul? (wordCount length) word).bind fun cost => Nrg.add? cost base with
  | some cost => .ok cost
  | none => .error .outOfNrg

end MessageCalls

import MessageCalls.Bytes
/-!
# MessageCalls.Exit

How a frame ends, and why a call fails.

There are **two families of failure**. A `Halt` is recoverable: the frame that made the call sees a
failed call and carries on. An `Abort` is fatal: it ends the whole transaction. A frame ends with
an `Exit`; the frame that made the call sees a `Failure` when that exit is not a success.
-/

namespace MessageCalls

/-- A recoverable failure of a frame. -/
inductive Halt
  /-- The call depth has reached the call stack limit. -/
  | depthExceeded
  /-- The caller cannot afford the value it tries to send. -/
  | insufficientBalance
  | outOfNrg
  /-- A static frame tried to modify the state. -/
  | staticModeViolation
  /-- The nonce of the creating account cannot be incremented. -/
  | maxNonce
  /-- The deployed code is larger than the rules allow. -/
  | contractLimit
  /-- The interpreter rejected the code. -/
  | invalidCode
  /-- A halt that only the interpreter can name. -/
  | other (message : String)
  deriving DecidableEq, Repr, Inhabited

/-- A condition that aborts the whole transaction. -/
inductive Abort
  /-- A creation derived an address that already has code or a nonce. -/
  | addressCollision
  /-- A credit would overflow the recipient's balance. -/
  | balanceOverflow
  /-- A snapshot handle was restored or committed out of order. -/
  | unevenSnapshot
  /-- A fatal condition that only the interpreter can name. -/
  | other (message : String)
  deriving DecidableEq, Repr, Inhabited

/-- How a frame ends. -/
inductive Exit
  /-- The code stopped, or ran off its end. -/
  | stopped
  | returned
  | reverted
  /-- The frame halted exceptionally; all its nrg is consumed. -/
  | halted (cause : Halt)
  /-- A fatal condition ended the frame and the transaction with it. -/
  | aborted (cause : Abort)
  deriving DecidableEq, Repr, Inhabited

/-- Why a call or a creation failed. -/
inductive Failure
  /-- The callee reverted and returned `data`. -/
  | reverted (data : Bytes)
  /-- The call failed before or during execution. -/
  | halted (cause : Halt)
  /-- The transaction must be aborted. -/
  | aborted (cause : Abort)
  deriving DecidableEq, Repr, Inhabited

namespace Halt

/-- The name of a halt in records. -/
def tag : Halt → String
  | depthExceeded => "DepthExceeded"
  | insufficientBalance => "InsufficientBalance"
  | outOfNrg => "OutOfNrg"
  | staticModeViolation => "StaticModeViolation"
  | maxNonce => "MaxNonce"
  | contractLimit => "ContractLimit"
  | invalidCode => "InvalidCode"
  | other _ => "Other"

/-- The halts that carry no text. -/
def plain : List Halt :=
  [depthExceeded, insufficientBalance, outOfNrg, staticModeViolation, maxNonce, contractLimit,
    invalidCode]

/-- The text of a halt. -/
def message : Halt → String
  | depthExceeded => "max call depth exceeded"
  | insufficientBalance => "insufficient balance for transfer"
  | outOfNrg => "out of nrg"
  | staticModeViolation => "state modification in static call"
  | maxNonce => "nonce overflow"
  | contractLimit => "contract code size limit exceeded"
  | invalidCode => "invalid code"
  | other text => text

end Halt

namespace Abort

/-- The name of a fatal condition in records. -/
def tag : Abort → String
  | addressCollision => "AddressCollision"
  | balanceOverflow => "BalanceOverflow"
  | unevenSnapshot => "UnevenSnapshot"
  | other _ => "Other"

/-- The fatal conditions that carry no text. -/
def plain : List Abort := [addressCollision, balanceOverflow, unevenSnapshot]

/-- The text of a fatal condition. -/
def message : Abort → String
  | addressCollision => "contract address collision"
  | balanceOverflow => "balance overflow"
  | unevenSnapshot => "snapshot restored out of order"
  | other text => "fatal: " ++ text

end Abort

namespace Exit

/-- The code stopped or returned. -/
def isSuccess : Exit → Bool
  | stopped | returned => true
  | _ => false

/-- A fatal condition ended the frame. -/
def isFatal : Exit → Bool
  | aborted _ => true
  | _ => false

end Exit

namespace Failure

/-- The failure aborts the enclosing transaction. -/
def isFatal : Failure → Bool
  | aborted _ => true
  | _ => false

/-- The data a reverting callee returned. -/
def revertData? : Failure → Option Bytes
  | reverted data => some data
  | _ => none

/-- The exit of a frame that fails this way. -/
def exit : Failure → Exit
  | reverted _ => .reverted
  | halted cause => .halted cause
  | aborted cause => .aborted cause

/-- The text of a failure; revert data follow in hexadecimal if there are any. -/
def message : Failure → String
  | reverted [] => "execution reverted"
  | reverted data => "execution reverted: 0x" ++ data.hex
  | halted cause => cause.message
  | aborted cause => cause.message

@[simp] theorem isSuccess_exit (f : Failure) : f.exit.isSuccess = false := by
  cases f <;> rfl

end Failure

end MessageCalls

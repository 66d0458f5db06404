import MessageCalls.Exit
import MessageCalls.Word
/-!
# MessageCalls.Outcome

What the invoking frame learns about a call or a creation: its data or the reason it failed, and
the nrg handed back. **No nrg comes back from a halted or aborted frame** (`Exit.outcome`).
-/

namespace MessageCalls

/-- The result of a message call as the invoking frame sees it. -/
structure CallOutcome where
  /-- The data returned, or the reason of the failure. -/
  result : Except Failure Bytes
  nrgLeft : Nrg

/-- The result of a contract creation; on success the data are the deployed code. -/
structure CreateOutcome extends CallOutcome where
  /-- Where the contract was, or would have been, deployed. There is none if the creation failed
  before an address was derived. -/
  address : Option Address

namespace CallOutcome

/-- A call that failed. -/
def failed (failure : Failure) (nrgLeft : Nrg) : CallOutcome := ⟨.error failure, nrgLeft⟩

/-- The call succeeded. -/
def isSuccess (o : CallOutcome) : Bool :=
  match o.result with
  | .ok _ => true
  | .error _ => false

/-- The reason of the failure, if the call failed. -/
def failure? (o : CallOutcome) : Option Failure :=
  match o.result with
  | .ok _ => none
  | .error failure => some failure

/-- The data returned on success, the revert data on revert, and nothing otherwise. -/
def output (o : CallOutcome) : Bytes :=
  match o.result with
  | .ok data => data
  | .error failure => failure.revertData?.getD []

end CallOutcome

namespace CreateOutcome

/-- A creation that failed. -/
def failed (address : Option Address) (failure : Failure) (nrgLeft : Nrg) : CreateOutcome :=
  { CallOutcome.failed failure nrgLeft with address }

/-- The address of the new contract, if the creation succeeded. -/
def deployed? (o : CreateOutcome) : Option Address :=
  if o.isSuccess then o.address else none

/-- The deployed code, if the creation succeeded. -/
def code? (o : CreateOutcome) : Option Bytes := o.result.toOption

end CreateOutcome

/-- The outcome of a frame that ended with the given exit, data and remaining nrg. -/
def Exit.outcome (exit : Exit) (output : Bytes) (nrgLeft : Nrg) : CallOutcome :=
  match exit with
  | .stopped | .returned => ⟨.ok output, nrgLeft⟩
  | .reverted => .failed (.reverted output) nrgLeft
  | .halted cause => .failed (.halted cause) 0
  | .aborted cause => .failed (.aborted cause) 0

/-- A frame's call succeeds exactly when its exit is a success. -/
@[simp] theorem Exit.isSuccess_outcome (exit : Exit) (output : Bytes) (nrgLeft : Nrg) :
    (exit.outcome output nrgLeft).isSuccess = exit.isSuccess := by
  cases exit <;> rfl

end MessageCalls

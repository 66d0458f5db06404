import MessageCalls.Exit
import MessageCalls.Message
/-!
# MessageCalls.Frame

One run of contract code: what the interpreter is given and what it reports.
-/

namespace MessageCalls

/-- One invocation of a contract, as it is handed to the interpreter. -/
structure Frame where
  /-- The identity the code runs under. -/
  identity : Identity
  /-- The account the code was loaded from. -/
  codeAddress : Address
  input : Bytes
  /-- The nrg available to the frame. -/
  nrg : Budget
  /-- The frame was entered by a delegate call. -/
  isDelegate : Bool
  /-- The frame may not modify the state. -/
  isStatic : Bool
  /-- The depth of the frame; a frame that no other encloses has depth 1. -/
  depth : Nat
  deriving DecidableEq

/-- What the interpreter reports when a frame ends. -/
structure FrameResult where
  exit : Exit
  output : Bytes
  nrgLeft : Nrg
  deriving DecidableEq

namespace FrameResult

/-- The frame returned data. -/
def returned (output : Bytes) (nrgLeft : Nrg) : FrameResult := ⟨.returned, output, nrgLeft⟩

/-- The frame stopped. -/
def stopped (nrgLeft : Nrg) : FrameResult := ⟨.stopped, [], nrgLeft⟩

/-- The frame reverted with data. -/
def reverted (output : Bytes) (nrgLeft : Nrg) : FrameResult := ⟨.reverted, output, nrgLeft⟩

/-- The frame halted exceptionally; its nrg is gone. -/
def halted (cause : Halt) : FrameResult := ⟨.halted cause, [], 0⟩

/-- The frame met a fatal condition. -/
def aborted (cause : Abort) : FrameResult := ⟨.aborted cause, [], 0⟩

end FrameResult

end MessageCalls

import MessageCalls.Executor.State
/-!
# MessageCalls.Executor.Checkpoint

How a frame is guarded. Before a frame a checkpoint is taken; afterwards the frame is settled
against it: a success keeps what the frame wrote, anything else restores the accounts and drops
the logs emitted since. **A latched fatal condition overrides whatever the frame reported**
(`Executor.leave`).
-/

namespace MessageCalls

/-- A snapshot of the accounts, and the number of logs at the same moment. -/
structure Checkpoint where
  handle : Snapshot
  logs : Nat

/-- Runs the code of a frame in a state of the machine. -/
abbrev FrameRunner := Bytes → Frame → Executor → FrameResult × Executor

namespace Executor

/-- A checkpoint is taken. -/
def checkpoint (s : Executor) : Checkpoint × Executor :=
  let (handle, s) := s.snapshot
  (⟨handle, s.tx.logs.length⟩, s)

/-- What was done since a checkpoint is kept, or undone together with its logs. -/
def settle (setting : Setting) (s : Executor) (point : Checkpoint) (closing : Overlay.Closing) :
    Except Abort Unit × Executor :=
  match closing with
  | .commit => s.close setting point.handle .commit
  | .restore => { s with tx := s.tx.truncateLogs point.logs }.close setting point.handle .restore

/-- As `settle`; a refusal is latched. -/
def settleOrLatch (setting : Setting) (s : Executor) (point : Checkpoint)
    (closing : Overlay.Closing) : Executor :=
  match s.settle setting point closing with
  | (.ok (), s) => s
  | (.error cause, s) => s.latch cause

/-- A frame that reported an exit, data and remaining nrg is left: the exit is announced, a fatal
condition is latched, and the frame is settled against its checkpoint. -/
def leave (setting : Setting) (s : Executor) (point : Checkpoint) (exit : Exit) (output : Bytes)
    (nrgLeft : Nrg) : CallOutcome × Executor :=
  let exit := match s.fatal with
    | some cause => .aborted cause
    | none => exit
  let s := s.note (.event (.exit exit output))
  let s := match exit with
    | .aborted cause => s.latch cause
    | _ => s
  match s.settle setting point (if exit.isSuccess then .commit else .restore) with
  | (.ok (), s) => (exit.outcome output nrgLeft, s)
  | (.error cause, s) => (.failed (.aborted cause) 0, s.latch cause)

/-- A frame is entered: its code runs at the frame's depth and in the frame's mode, and the depth
and the mode found before are put back. Empty code stops at once. -/
def enter (runner : FrameRunner) (code : Bytes) (frame : Frame) (s : Executor) :
    FrameResult × Executor :=
  if code.isEmpty then (.stopped frame.nrg.limit, s)
  else
    let inner : Executor :=
      { s with tx := s.tx.setDepth frame.depth, isStatic := frame.isStatic }
    let (result, inner) := runner code frame inner
    (result, { inner with tx := inner.tx.setDepth s.tx.depth, isStatic := s.isStatic })

/-- What refuses a call or creation before anything is touched: a latched fatal condition, the
lack of room for another frame, a payer who cannot afford the value. Otherwise there is a runner
for the frame; `room` has none when the call stack limit is reached. -/
def preflight (s : Executor) (room : Option FrameRunner) (payer : Address) (value : Amount) :
    Except Failure FrameRunner :=
  match s.fatal with
  | some cause => .error (.aborted cause)
  | none =>
    match room with
    | none => .error (.halted .depthExceeded)
    | some runner =>
      if s.accounts.balance payer < value then .error (.halted .insufficientBalance)
      else .ok runner

end Executor

/-- The nrg handed back by a call refused with a failure: all of it, unless the failure is
fatal. -/
def Failure.refund (failure : Failure) (limit : Nrg) : Nrg := if failure.isFatal then 0 else limit

end MessageCalls

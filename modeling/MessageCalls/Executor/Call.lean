import MessageCalls.Executor.Checkpoint
/-!
# MessageCalls.Executor.Call

Message calls. A call of some kind is first resolved into a `Call`: who runs which code as whom,
and what value moves. Then the frame is guarded by a checkpoint, the value moves, and exactly one
of a native contract, the interpreter, or nothing (for empty code) answers.

**In static mode no value moves**, so that a call of value zero cannot bring an account into
existence; a call that would move a value other than zero is refused.
-/

namespace MessageCalls

/-- The call that a kind, a caller and a target stand for, made in static mode or not. -/
def CallKind.resolve (kind : CallKind) (isStatic : Bool) (caller : Identity) (target : Address)
    (input : Bytes) (nrg : Budget) (value : Amount) : Call where
  codeAddress := target
  transfer := if isStatic then none else kind.transfer? caller target value
  input := input
  nrg := nrg
  isStatic := isStatic || kind = .staticCall
  isDelegate := kind = .delegateCall
  identity := kind.identity caller target value

namespace Call

/-- The account that pays for a call. -/
def payer (c : Call) : Address :=
  match c.transfer with
  | some t => t.source
  | none => c.identity.caller

/-- The value that a call moves. -/
def value (c : Call) : Amount :=
  match c.transfer with
  | some t => t.value
  | none => 0

/-- The frame of a call at a depth. -/
def frame (c : Call) (depth : Nat) : Frame where
  identity := c.identity
  codeAddress := c.codeAddress
  input := c.input
  nrg := c.nrg
  isDelegate := c.isDelegate
  isStatic := c.isStatic
  depth := depth

end Call

/-- What a frame reports that a native contract answers. -/
def NativeResult.report (limit : Nrg) : NativeResult → FrameResult
  | .ok answer => .returned answer.output (Nrg.subSaturating limit answer.cost)
  | .error halt => .halted halt

namespace Executor

/-- The value of a call moves, if any does. -/
def pay (s : Executor) : Option Transfer → Except Failure Unit × Executor
  | some t => s.transfer t
  | none => (.ok (), s)

/-- A call is answered by the native contract at its code address, or else by the code there. -/
def answerCall (setting : Setting) (runner : FrameRunner) (c : Call) (s : Executor) :
    FrameResult × Executor :=
  match setting.natives.run c.codeAddress c.input c.nrg.limit c.identity with
  | some result =>
    let s := if setting.natives.isRecorded then s.record (.native c.codeAddress result) else s
    (result.report c.nrg.limit, s)
  | none => enter runner (s.accounts.code c.codeAddress) (c.frame (s.tx.depth + 1)) s

/-- A resolved call is carried out, with room for its frame or without. -/
def carryOut (setting : Setting) (room : Option FrameRunner) (c : Call) (s : Executor) :
    CallOutcome × Executor :=
  let s := s.note (.event (.call c))
  match s.preflight room c.payer c.value with
  | .error failure =>
    let s := s.record (.callRejected c.codeAddress failure)
    (.failed failure (failure.refund c.nrg.limit), s.note (.event (.exit failure.exit [])))
  | .ok runner =>
    let depth := s.tx.depth
    let (point, s) := s.checkpoint
    match s.pay c.transfer with
    | (.error failure, s) => s.leave setting point failure.exit [] 0
    | (.ok (), s) =>
      let (result, s) := answerCall setting runner c s
      let (outcome, s) := s.leave setting point result.exit result.output result.nrgLeft
      (outcome, s.record (.callFinished c.codeAddress depth outcome))

/-- A message call, with room for its frame or without. -/
def callWith (setting : Setting) (room : Option FrameRunner) (kind : CallKind)
    (caller : Identity) (target : Address) (input : Bytes) (nrg : Budget) (value : Amount)
    (s : Executor) : CallOutcome × Executor :=
  if s.isStatic && kind.movesValue && value ≠ 0 then
    (.failed (.halted .staticModeViolation) 0, s)
  else carryOut setting room (kind.resolve s.isStatic caller target input nrg value) s

end Executor

end MessageCalls

import MessageCalls.Executor.Transaction
/-!
# MessageCalls.Proofs.Executor.Chronicle

The **moments of a run**, in the order in which they come, at every depth. The machine answers a
request with an answer and a new state and does not tell what happened in between; the chronicle
tells it, for statements about every point of a run or about the order of two points.

* `Moment` is one point: which frames are running, the state of the machine, and what happens.
* `Executor.requestChronicle` lists the moments of one request, those of the frames that it enters
  included. It follows `Executor.answer` branch by branch and asks the same functions for every
  state and every answer, so it never has a state of its own.
* `Executor.transactCallChronicle` and `Executor.transactCreateChronicle` list the moments of a
  whole transaction.
-/

namespace MessageCalls

/-- What happens at one moment of a run. -/
inductive Act
  /-- Running code asks a request, which is answered so in the end. -/
  | asked (request : Request) (answer : request.Answer)
  /-- A call or a creation is let in: its frame is guarded by a checkpoint from now on. -/
  | opened
  /-- A native contract answers. -/
  | native (a : Address)
  /-- Code begins to run in a frame. -/
  | entered (code : Bytes) (frame : Frame)
  /-- The code of a new contract is stored. -/
  | deposited (a : Address) (code : Bytes)
  /-- A fatal condition is met. -/
  | raised (cause : Abort)
  /-- A checkpoint is settled. -/
  | settled (closing : Overlay.Closing) (result : Except Abort Unit)
  /-- The call or the creation let in last, and not left yet, ends with an outcome. -/
  | left (outcome : CallOutcome)

/-- One moment of a run. -/
structure Moment where
  /-- The frames whose code is running, innermost first. -/
  frames : List Frame
  /-- The state of the machine. -/
  state : Executor
  /-- What happens. -/
  act : Act

namespace Moment

/-- The fatal condition that is met. -/
def raised? (m : Moment) : Option Abort :=
  match m.act with
  | .raised cause => some cause
  | _ => none

/-- A call or a creation is let in. -/
def isOpened (m : Moment) : Bool :=
  match m.act with
  | .opened => true
  | _ => false

/-- A call or a creation is left. -/
def isLeft (m : Moment) : Bool :=
  match m.act with
  | .left _ => true
  | _ => false

/-- The code that begins to run, and its frame. -/
def entered? (m : Moment) : Option (Bytes × Frame) :=
  match m.act with
  | .entered code frame => some (code, frame)
  | _ => none

end Moment

namespace Program

variable {α β σ : Type}

/-- What `visit` lists for every request of a computation, one after the other. -/
def chronicle (answer : (r : Request) → σ → r.Answer × σ) (visit : Request → σ → List β) :
    Program α → σ → List β
  | done _, _ => []
  | ask r next, s =>
    visit r s ++ chronicle answer visit (next (answer r s).1) (answer r s).2

end Program

/-- Lists the moments of the code of a frame. -/
abbrev FrameRecorder := List Frame → Bytes → Frame → Executor → List Moment

namespace Executor

/-- The state in which the code of a frame starts. -/
def inside (s : Executor) (frame : Frame) : Executor :=
  { s with tx := s.tx.setDepth frame.depth, isStatic := frame.isStatic }

/-- The state after the code of a frame, once the depth and the mode found before are put back. -/
def backTo (t s : Executor) : Executor :=
  { t with tx := t.tx.setDepth s.tx.depth, isStatic := s.isStatic }

/-- The exit that counts when a frame reports one: a latched fatal condition comes first. -/
def finalExit (s : Executor) (exit : Exit) : Exit :=
  match s.fatal with
  | some cause => .aborted cause
  | none => exit

section Chronicle

variable (setting : Setting) (room : Option FrameRunner) (runner : FrameRunner)
  (recorder : FrameRecorder) (frames : List Frame)

/-- A frame that is about to be left with a fatal condition has met it. -/
def raisedBy (exit : Exit) (s : Executor) : List Moment :=
  match exit with
  | .aborted cause => [⟨frames, s, .raised cause⟩]
  | _ => []

/-- The moments of leaving a frame. -/
def leaveChronicle (point : Checkpoint) (exit : Exit) (output : Bytes) (nrgLeft : Nrg)
    (s : Executor) : List Moment :=
  let closing := if (s.finalExit exit).isSuccess then .commit else .restore
  raisedBy frames exit s ++
    [⟨frames, s, .settled closing (s.settle setting point closing).1⟩,
      ⟨frames, s, .left (s.leave setting point exit output nrgLeft).1⟩]

/-- The moments of entering a frame; empty code has none. -/
def enterChronicle (code : Bytes) (frame : Frame) (s : Executor) : List Moment :=
  if code.isEmpty then [] else recorder frames code frame (s.inside frame)

/-- The moments of answering a call that was let in. -/
def answerCallChronicle (c : Call) (s : Executor) : List Moment :=
  match setting.natives.run c.codeAddress c.input c.nrg.limit c.identity with
  | some _ => [⟨frames, s, .native c.codeAddress⟩]
  | none =>
    enterChronicle recorder frames (s.accounts.code c.codeAddress) (c.frame (s.tx.depth + 1)) s

/-- The moments of carrying out a resolved call. -/
def carryOutChronicle (c : Call) (s : Executor) : List Moment :=
  let s := s.note (.event (.call c))
  match s.preflight room c.payer c.value with
  | .error _ => []
  | .ok runner =>
    let (point, s) := s.checkpoint
    ⟨frames, s, .opened⟩ ::
      match s.pay c.transfer with
      | (.error failure, s) => leaveChronicle setting frames point failure.exit [] 0 s
      | (.ok (), s) =>
        let (result, t) := answerCall setting runner c s
        answerCallChronicle setting recorder frames c s ++
          leaveChronicle setting frames point result.exit result.output result.nrgLeft t

/-- The moments of a message call. -/
def callChronicle (kind : CallKind) (caller : Identity) (target : Address) (input : Bytes)
    (nrg : Budget) (value : Amount) (s : Executor) : List Moment :=
  if s.isStatic && kind.movesValue && value ≠ 0 then []
  else
    carryOutChronicle setting room recorder frames
      (kind.resolve s.isStatic caller target input nrg value) s

/-- The moment at which the code of a new contract is stored, if it is. -/
def depositChronicle (address : Address) (result : FrameResult) (s : Executor) : List Moment :=
  if result.exit.isSuccess && s.fatal.isNone then
    match setting.config.depositCode result.output.length result.nrgLeft with
    | .ok _ => [⟨frames, s, .deposited address result.output⟩]
    | .error _ => []
  else []

/-- The moments of a creation whose nonce is claimed. -/
def createAtChronicle (point : Checkpoint) (creator address : Address) (init : Bytes)
    (nrg : Budget) (value : Amount) (s : Executor) : List Moment :=
  if s.isTaken address then
    leaveChronicle setting frames point (.aborted .addressCollision) [] 0
      ((s.record (.collision address)).latch .addressCollision)
  else
    let frame := initFrame creator address value nrg (s.tx.depth + 1)
    match s.transfer ⟨creator, address, value⟩ with
    | (.error failure, s) => leaveChronicle setting frames point failure.exit [] 0 s
    | (.ok (), s) =>
      let (result, t) := enter runner init frame s
      let (final, u) := deposit setting address result t
      enterChronicle recorder frames init frame s ++
        depositChronicle setting frames address result t ++
        leaveChronicle setting frames point final.exit final.output final.nrgLeft u

/-- The moment at which a checkpoint is given up because the creator's nonce cannot be
incremented. -/
def claimChronicle (creator : Address) (s : Executor) : List Moment :=
  if setting.config.noncePersistsOnFailure then []
  else
    let (point, s) := s.checkpoint
    match s.incNonce creator with
    | .error _ => [⟨frames, s, .settled .restore (s.settle setting point .restore).1⟩]
    | .ok _ => []

/-- The moments of a contract creation. -/
def createChronicle (caller : Identity) (scheme : AddressScheme) (init : Bytes) (nrg : Budget)
    (value : Amount) (s : Executor) : List Moment :=
  let creator := caller.address
  if s.isStatic then []
  else
    match s.preflight room creator value with
    | .error _ => []
    | .ok runner =>
      let address := s.newAddress scheme
      let s := s.note (.event (.create creator address scheme value init nrg.limit))
      match claimNonce setting creator s with
      | (.error _, _) => claimChronicle setting frames creator s
      | (.ok point, s) =>
        ⟨frames, s, .opened⟩ ::
          createAtChronicle setting runner recorder frames point creator address init nrg value s

/-- The moments of a request. -/
def requestChronicle (r : Request) (s : Executor) : List Moment :=
  ⟨frames, s, .asked r (answer setting room r s).1⟩ ::
    match r with
    | .call kind caller target input nrg value =>
      callChronicle setting room recorder frames kind caller target input nrg value s
    | .create caller init nrg value =>
      createChronicle setting room recorder frames caller (.legacy caller.address) init nrg value s
    | _ => []

end Chronicle

/-- Lists the moments of a frame with room for it and so many nested in it, less one. -/
def recorder (setting : Setting) : Nat → FrameRecorder
  | 0 => fun _ _ _ _ => []
  | room + 1 => fun frames code frame s =>
    ⟨frames, s, .entered code frame⟩ ::
      (setting.interpreter code frame).chronicle (answer setting (runner setting room))
        (requestChronicle setting (runner setting room) (recorder setting room) (frame :: frames))
        (s.note (.frame code frame s.tx.depth s.isStatic))

/-- The moments of a transaction that makes a call, up to its own settling. -/
def transactCallChronicle (setting : Setting) (caller target : Address) (value : Amount)
    (input : Bytes) (nrg : Budget) (s : Executor) : List Moment :=
  let s := (s.record (.transactCall caller target value nrg.limit)).start.2
  callChronicle setting (runner setting (s.room setting)) (recorder setting (s.room setting)) []
    .call (.external caller) target input nrg value s

/-- The moments of a transaction that makes a creation, up to its own settling. -/
def transactCreateChronicle (setting : Setting) (caller : Address) (value : Amount) (init : Bytes)
    (nrg : Budget) (s : Executor) : List Moment :=
  let s := (s.record (.transactCreate caller value nrg.limit)).start.2
  createChronicle setting (runner setting (s.room setting)) (recorder setting (s.room setting)) []
    (.external caller) (.legacy caller) init nrg value s

end Executor

end MessageCalls

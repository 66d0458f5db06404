import MessageCalls.Proofs.Executor.Chronicle
/-!
# MessageCalls.Proofs.Executor.Activity

**Everything the machine can do while it answers requests**, as one inductive relation.
`Activity setting frames s moments t` says that the machine gets from `s` to `t` through some
moments, while the code of `frames` is running. The rules are the few things that code and machine
can do: read, write, emit a log, move value, claim a nonce, enter a frame, and guard some activity
by a checkpoint. A rule gives the condition under which the machine gets there, so that a fact
about every run is an induction with one case for each rule.

That the machine does nothing else is shown in `MessageCalls.Proofs.Executor.Runs`.
-/

namespace MessageCalls

/-- The frame that an entry of the journal hands to the interpreter. -/
def Entry.frame? : Entry → Option (Bytes × Frame)
  | .frame code f _ _ => some (code, f)
  | _ => none

/-- The closing of a snapshot that an entry of the journal announces. -/
def Entry.closing? : Entry → Option Overlay.Closing
  | .record (.closing kind _) => some kind
  | _ => none

/-- The entry only remarks on a run: it hands over no frame and announces no closing. -/
def Entry.isRemark (e : Entry) : Bool := e.frame?.isNone && e.closing?.isNone

namespace Executor

/-- Entries are added to the journal that only remark on the run. -/
inductive Noted (s : Executor) : Executor → Prop
  /-- Nothing is added. -/
  | refl : Noted s s
  /-- One more entry is added. -/
  | note {t : Executor} (h : Noted s t) (entry : Entry) (hentry : entry.isRemark = true) :
      Noted s (t.note entry)

/-- How the work guarded by a checkpoint comes to an end: code or a native contract reports an
exit, a transfer fails, or the address of a creation is taken. -/
inductive Ends : Executor → Executor → Exit → Prop
  /-- The work reports an exit of its own. -/
  | reported (t : Executor) (exit : Exit) : Ends t t exit
  /-- Value cannot move. -/
  | unpaid {t u : Executor} {transfer : Transfer} {failure : Failure}
      (h : t.transfer transfer = (.error failure, u)) : Ends t u failure.exit
  /-- The address of a new contract is taken. -/
  | collided (t : Executor) (address : Address) :
      Ends t ((t.record (.collision address)).latch .addressCollision)
        (.aborted .addressCollision)

/-- What the machine can do between two states. -/
inductive Activity (setting : Setting) :
    List Frame → Executor → List Moment → Executor → Prop
  /-- Nothing happens. -/
  | rest (frames : List Frame) (s : Executor) : Activity setting frames s [] s
  /-- One thing after another. -/
  | andThen {frames : List Frame} {s t u : Executor} {moments later : List Moment}
      (first : Activity setting frames s moments t) (second : Activity setting frames t later u) :
      Activity setting frames s (moments ++ later) u
  /-- An entry is added to the journal. -/
  | note (frames : List Frame) (s : Executor) (entry : Entry) (h : entry.isRemark = true) :
      Activity setting frames s [] (s.note entry)
  /-- A step is recorded. -/
  | stepLog (frames : List Frame) (s : Executor) (entry : StepLog) :
      Activity setting frames s [] { s with tx := s.tx.addStepLog entry }
  /-- A log is emitted. -/
  | log {frames : List Frame} {s : Executor} (h : s.isStatic = false) (entry : Log) :
      Activity setting frames s [] { s with tx := s.tx.addLog entry }
  /-- A storage slot is written. -/
  | storage {frames : List Frame} {s : Executor} (h : s.isStatic = false) (a : Address)
      (k v : Word) : Activity setting frames s [] (s.updateAccounts fun o => o.setStorage a k v)
  /-- Value moves. -/
  | transfer {frames : List Frame} {s t : Executor} (h : s.isStatic = false)
      {transfer : Transfer} (hpaid : s.transfer transfer = (.ok (), t)) :
      Activity setting frames s [] t
  /-- A nonce is incremented. -/
  | nonce {frames : List Frame} {s t : Executor} (h : s.isStatic = false) {a : Address}
      (hclaimed : s.incNonce a = .ok t) : Activity setting frames s [] t
  /-- The code of a new contract is stored. -/
  | deposit {frames : List Frame} {s : Executor} (h : s.isStatic = false)
      (hfatal : s.fatal = none) (a : Address) (code : Bytes) :
      Activity setting frames s [⟨frames, s, .deposited a code⟩]
        (s.updateAccounts fun o => o.setCode a code)
  /-- Running code asks a request; what the machine does about it comes next. -/
  | asked (frames : List Frame) (s : Executor) (room : Option FrameRunner) (r : Request) :
      Activity setting frames s [⟨frames, s, .asked r (answer setting room r s).1⟩] s
  /-- A native contract answers. -/
  | native {frames : List Frame} {s : Executor} (hfatal : s.fatal = none) (a : Address) :
      Activity setting frames s [⟨frames, s, .native a⟩] s
  /-- The code of a frame runs, one level deeper. A frame entered in static mode is static. -/
  | entered {frames : List Frame} {s t : Executor} {moments : List Moment} {code : Bytes}
      {frame : Frame} (hfatal : s.fatal = none) (hcode : code.isEmpty = false)
      (hstatic : s.isStatic = true → frame.isStatic = true) (hdepth : frame.depth = s.tx.depth + 1)
      (body : Activity setting (frame :: frames)
        ((s.inside frame).note (.frame code frame frame.depth frame.isStatic)) moments t) :
      Activity setting frames s
        (⟨frames, s.inside frame, .entered code frame⟩ :: moments) (t.backTo s)
  /-- Some activity is guarded by a checkpoint, comes to an end, and is settled. -/
  | guarded {frames : List Frame} {s t u : Executor} {moments : List Moment} {exit : Exit}
      (hfatal : s.fatal = none) (opening : Executor)
      (body : Activity setting frames s.checkpoint.2 moments t) (ends : Ends t u exit)
      (output : Bytes) (nrgLeft : Nrg) :
      Activity setting frames s
        (⟨frames, opening, .opened⟩ ::
          (moments ++ leaveChronicle setting frames s.checkpoint.1 exit output nrgLeft u))
        (u.leave setting s.checkpoint.1 exit output nrgLeft).2
  /-- A checkpoint is given up at once. -/
  | givenUp {frames : List Frame} {s : Executor} {entry : Entry} (h : entry.isRemark = true) :
      Activity setting frames s
        [⟨frames, s.checkpoint.2,
          .settled .restore (s.checkpoint.2.settle setting s.checkpoint.1 .restore).1⟩]
        ((s.checkpoint.2.note entry).settleOrLatch setting s.checkpoint.1 .restore)

end Executor

namespace Executor

variable {setting : Setting} {frames : List Frame} {s t u : Executor} {moments : List Moment}

namespace Activity

/-- Something without a moment comes first. -/
theorem after (first : Activity setting frames s [] t)
    (second : Activity setting frames t moments u) : Activity setting frames s moments u :=
  first.andThen second

/-- Something without a moment comes last. -/
theorem before (first : Activity setting frames s moments t)
    (second : Activity setting frames t [] u) : Activity setting frames s moments u := by
  simpa using first.andThen second

end Activity

end Executor

end MessageCalls

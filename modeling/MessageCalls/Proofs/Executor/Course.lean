import MessageCalls.Proofs.Executor.Activity
/-!
# MessageCalls.Proofs.Executor.Course

A finer account of a run than `Executor.Activity`, for facts that tie a moment to what becomes of
it. `Course setting frames s moments t` says besides how a request was answered at the moment it was
asked, in which state a frame was let in, and that the code of a new contract is only stored by a
creation **whose address was free when it was let in**.

A course never ends inside a frame. So what the frames do that were open when it began,
`enclosing`, is left to what comes after it (`Executor.Course.enclosing_append`).
-/

namespace MessageCalls

/-- The request makes a call or a creation. -/
def Request.isNested : Request → Bool
  | .call .. | .create .. => true
  | _ => false

/-- A call or a creation is left with a failure. -/
def Moment.isFailure (m : Moment) : Bool :=
  match m.act with
  | .left outcome => !outcome.isSuccess
  | _ => false

/-- The answer to a request is the one in the state in which it is asked. -/
def Moment.AnsweredBy (setting : Setting) (m : Moment) : Prop :=
  ∀ r a, m.act = .asked r a → ∃ room, a = (Executor.answer setting room r m.state).1

/-- The moments at which the frames that are open at first store their code or are left. Frames let
in later are passed over; `n` of them are open. -/
def enclosing : Nat → List Moment → List Moment
  | _, [] => []
  | n, m :: later =>
    match m.act, n with
    | .opened, n => enclosing (n + 1) later
    | .left _, n + 1 => enclosing n later
    | .left _, 0 | .deposited _ _, 0 => m :: enclosing 0 later
    | _, n => enclosing n later

namespace Executor

/-- How a frame is let in: a checkpoint is taken, and a creation may claim its nonce after it. -/
inductive Opens (s : Executor) : Executor → Prop
  | guarded : Opens s s.checkpoint.2
  | claimed {t : Executor} {creator : Address} (hstatic : s.isStatic = false)
      (h : s.checkpoint.2.incNonce creator = .ok t) : Opens s t

/-- How the machine gets from one state to another through some moments, while the code of some
frames is running. -/
inductive Course (setting : Setting) : List Frame → Executor → List Moment → Executor → Prop
  /-- Nothing happens. -/
  | rest (frames : List Frame) (s : Executor) : Course setting frames s [] s
  /-- One thing after another. -/
  | andThen {frames : List Frame} {s t u : Executor} {moments later : List Moment}
      (first : Course setting frames s moments t) (second : Course setting frames t later u) :
      Course setting frames s (moments ++ later) u
  /-- An entry is added to the journal. -/
  | note (frames : List Frame) (s : Executor) (entry : Entry) (h : entry.isRemark = true) :
      Course setting frames s [] (s.note entry)
  /-- A request is answered without a frame of its own. -/
  | answered (frames : List Frame) (s : Executor) (room : Option FrameRunner) {r : Request}
      (h : r.isNested = false) :
      Course setting frames s [⟨frames, s, .asked r (answer setting room r s).1⟩]
        (answer setting room r s).2
  /-- A call or a creation is asked for; how it comes about is told next. -/
  | asked (frames : List Frame) (s : Executor) (room : Option FrameRunner) {r : Request}
      (h : r.isNested = true) :
      Course setting frames s [⟨frames, s, .asked r (answer setting room r s).1⟩] s
  /-- A native contract answers. -/
  | native {frames : List Frame} {s : Executor} (hfatal : s.fatal = none) (a : Address) :
      Course setting frames s [⟨frames, s, .native a⟩] s
  /-- Value moves. -/
  | transfer {frames : List Frame} {s t : Executor} (h : s.isStatic = false)
      {transfer : Transfer} (hpaid : s.transfer transfer = (.ok (), t)) :
      Course setting frames s [] t
  /-- A nonce is incremented. -/
  | nonce {frames : List Frame} {s t : Executor} (h : s.isStatic = false) {a : Address}
      (hclaimed : s.incNonce a = .ok t) : Course setting frames s [] t
  /-- The code of a frame runs, one level deeper. -/
  | entered {frames : List Frame} {s t : Executor} {moments : List Moment} {code : Bytes}
      {frame : Frame} (hfatal : s.fatal = none) (hcode : code.isEmpty = false)
      (hstatic : s.isStatic = true → frame.isStatic = true) (hdepth : frame.depth = s.tx.depth + 1)
      (body : Course setting (frame :: frames)
        ((s.inside frame).note (.frame code frame frame.depth frame.isStatic)) moments t) :
      Course setting frames s
        (⟨frames, s.inside frame, .entered code frame⟩ :: moments) (t.backTo s)
  /-- A call or a creation is let in, comes to an end without storing code, and is left. -/
  | guarded {frames : List Frame} {s opening t u : Executor} {moments : List Moment} {exit : Exit}
      (hfatal : s.fatal = none) (hopened : Opens s opening)
      (body : Course setting frames opening moments t) (ends : Ends t u exit)
      (output : Bytes) (nrgLeft : Nrg) :
      Course setting frames s
        (⟨frames, opening, .opened⟩ ::
          (moments ++ leaveChronicle setting frames s.checkpoint.1 exit output nrgLeft u))
        (u.leave setting s.checkpoint.1 exit output nrgLeft).2
  /-- A creation at a free address is let in, its code runs and is stored, and it is left. -/
  | created {frames : List Frame} {s opening paid t : Executor} {moments : List Moment}
      {transfer : Transfer} {address : Address} {exit : Exit} (hfatal : s.fatal = none)
      (hopened : Opens s opening) (hfree : opening.isTaken address = false)
      (hstatic : opening.isStatic = false)
      (hpaid : opening.transfer transfer = (.ok (), paid))
      (body : Course setting frames paid moments t) (hmode : t.isStatic = false)
      (hnone : t.fatal = none) (hsuccess : exit.isSuccess = true) (code : Bytes) (nrgLeft : Nrg) :
      Course setting frames s
        (⟨frames, opening, .opened⟩ ::
          ((moments ++ [⟨frames, t, .deposited address code⟩]) ++
            leaveChronicle setting frames s.checkpoint.1 exit code nrgLeft
              (t.updateAccounts fun o => o.setCode address code)))
        ((t.updateAccounts fun o => o.setCode address code).leave setting s.checkpoint.1 exit code
          nrgLeft).2
  /-- A checkpoint is given up at once. -/
  | givenUp {frames : List Frame} {s : Executor} {entry : Entry} (h : entry.isRemark = true) :
      Course setting frames s
        [⟨frames, s.checkpoint.2,
          .settled .restore (s.checkpoint.2.settle setting s.checkpoint.1 .restore).1⟩]
        ((s.checkpoint.2.note entry).settleOrLatch setting s.checkpoint.1 .restore)

variable {setting : Setting} {frames : List Frame} {s t u : Executor} {moments : List Moment}

namespace Course

/-- Something without a moment comes first. -/
theorem after (first : Course setting frames s [] t)
    (second : Course setting frames t moments u) : Course setting frames s moments u :=
  first.andThen second

/-- Something without a moment comes last. -/
theorem before (first : Course setting frames s moments t)
    (second : Course setting frames t [] u) : Course setting frames s moments u := by
  simpa using first.andThen second

end Course

theorem Noted.course (h : Noted s t) : Course setting frames s [] t := by
  induction h with
  | refl => exact .rest frames s
  | note _ entry hentry ih => exact ih.after (.note frames _ entry hentry)

/-! ### Every course is an activity -/

theorem Opens.activity (h : Opens s t) : Activity setting frames s.checkpoint.2 [] t := by
  cases h with
  | guarded => exact .rest frames _
  | claimed hstatic h => exact .nonce hstatic h

/-- What a creation does between its checkpoint and its end, if its code is stored. -/
theorem Opens.activity_stored {opening paid : Executor} {transfer : Transfer}
    (h : Opens s opening) (hstatic : opening.isStatic = false)
    (hpaid : opening.transfer transfer = (.ok (), paid))
    (body : Activity setting frames paid moments t) (hmode : t.isStatic = false)
    (hnone : t.fatal = none) (address : Address) (code : Bytes) :
    Activity setting frames s.checkpoint.2 (moments ++ [⟨frames, t, .deposited address code⟩])
      (t.updateAccounts fun o => o.setCode address code) := by
  have hpay : Activity setting frames opening [] paid := .transfer hstatic hpaid
  exact ((h.activity.after hpay).after body).andThen (.deposit hmode hnone address code)

theorem activity_answer (frames : List Frame) (s : Executor) (room : Option FrameRunner)
    {r : Request} (h : r.isNested = false) :
    Activity setting frames s [⟨frames, s, .asked r (answer setting room r s).1⟩]
      (answer setting room r s).2 := by
  refine (Activity.asked frames s room r).before ?_
  cases r with
  | setStorage a key value =>
      dsimp only [answer]
      split
      · exact .rest frames s
      · next h => exact .storage (by simpa using h) a key value
  | log entry =>
      dsimp only [answer]
      split
      · exact .rest frames s
      · next h => exact .log (by simpa using h) entry
  | stepLog entry => exact .stepLog frames s entry
  | call => cases h
  | create => cases h
  | note label finding => exact .note frames s _ rfl
  | _ => exact .rest frames s

theorem Course.activity (h : Course setting frames s moments t) :
    Activity setting frames s moments t := by
  induction h with
  | rest frames s => exact .rest frames s
  | andThen first second ih ih' => exact ih.andThen ih'
  | note frames s entry h => exact .note frames s entry h
  | answered frames s room h => exact activity_answer frames s room h
  | asked frames s room h => exact .asked frames s room _
  | native hfatal a => exact .native hfatal a
  | transfer h hpaid => exact .transfer h hpaid
  | nonce h hclaimed => exact .nonce h hclaimed
  | entered hfatal hcode hstatic hdepth body ih => exact .entered hfatal hcode hstatic hdepth ih
  | guarded hfatal hopened body ends output nrgLeft ih =>
      exact .guarded hfatal _ (hopened.activity.after ih) ends output nrgLeft
  | @created frames s opening paid t moments _ address exit hfatal hopened hfree hstatic hpaid body
      hmode hnone hsuccess code nrgLeft ih =>
      have hstored := hopened.activity_stored hstatic hpaid ih hmode hnone address code
      exact .guarded hfatal opening hstored (.reported _ exit) code nrgLeft
  | givenUp h => exact .givenUp h

/-! ### Nothing of a course reaches the frames further out -/

theorem enclosing_raisedBy (frames : List Frame) (exit : Exit) (s : Executor) (n : Nat)
    (later : List Moment) : enclosing n (raisedBy frames exit s ++ later) = enclosing n later := by
  cases exit <;> rfl

/-- Leaving a frame that was let in before; `n` frames let in since are open. -/
theorem enclosing_leaveChronicle (point : Checkpoint) (exit : Exit) (output : Bytes) (nrgLeft : Nrg)
    (s : Executor) (later : List Moment) :
    enclosing 0 (leaveChronicle setting frames point exit output nrgLeft s ++ later) =
      ⟨frames, s, .left (s.leave setting point exit output nrgLeft).1⟩ :: enclosing 0 later ∧
    ∀ n, enclosing (n + 1) (leaveChronicle setting frames point exit output nrgLeft s ++ later) =
      enclosing n later := by
  unfold leaveChronicle
  simp only [List.append_assoc, enclosing_raisedBy]
  exact ⟨rfl, fun n => rfl⟩

/-- **A course closes every frame that it lets in**, and no other. -/
theorem Course.enclosing_append (h : Course setting frames s moments t) (n : Nat)
    (later : List Moment) : enclosing n (moments ++ later) = enclosing n later := by
  induction h generalizing n later with
  | andThen first second ih ih' => rw [List.append_assoc, ih, ih']
  | entered hfatal hcode hstatic hdepth body ih => exact ih n later
  | guarded hfatal hopened body ends output nrgLeft ih =>
      show enclosing (n + 1) (_ ++ later) = _
      rw [List.append_assoc, ih]
      exact (enclosing_leaveChronicle _ _ output nrgLeft _ later).2 n
  | created hfatal hopened hfree hstatic hpaid body hmode hnone hsuccess code nrgLeft ih =>
      show enclosing (n + 1) (_ ++ later) = _
      rw [List.append_assoc, List.append_assoc, ih]
      exact (enclosing_leaveChronicle _ _ code nrgLeft _ later).2 n
  | _ => rfl

/-! ### Requests -/

theorem answeredBy_of_ne {m : Moment} (h : ∀ r a, m.act ≠ .asked r a) :
    m.AnsweredBy setting := fun r a hact => absurd hact (h r a)

theorem answeredBy_leaveChronicle (point : Checkpoint) (exit : Exit) (output : Bytes)
    (nrgLeft : Nrg) :
    ∀ m ∈ leaveChronicle setting frames point exit output nrgLeft s, m.AnsweredBy setting := by
  have hraised : ∀ m ∈ raisedBy frames exit s, m.AnsweredBy setting := by
    cases exit with
    | aborted cause => exact List.forall_mem_singleton.mpr (answeredBy_of_ne (by simp))
    | _ => exact List.forall_mem_nil _
  exact List.forall_mem_append.mpr ⟨hraised, List.forall_mem_cons.mpr
    ⟨answeredBy_of_ne (by simp), List.forall_mem_singleton.mpr (answeredBy_of_ne (by simp))⟩⟩

/-- **Every request is answered in the state in which it is asked.** -/
theorem Course.answeredBy (h : Course setting frames s moments t) :
    ∀ m ∈ moments, m.AnsweredBy setting := by
  induction h with
  | andThen first second ih ih' => exact List.forall_mem_append.mpr ⟨ih, ih'⟩
  | answered frames s room h | asked frames s room h =>
      refine List.forall_mem_singleton.mpr fun r a hact => ?_
      cases hact
      exact ⟨room, rfl⟩
  | native hfatal a => exact List.forall_mem_singleton.mpr (answeredBy_of_ne (by simp))
  | entered hfatal hcode hstatic hdepth body ih =>
      exact List.forall_mem_cons.mpr ⟨answeredBy_of_ne (by simp), ih⟩
  | guarded hfatal hopened body ends output nrgLeft ih =>
      exact List.forall_mem_cons.mpr ⟨answeredBy_of_ne (by simp),
        List.forall_mem_append.mpr ⟨ih, answeredBy_leaveChronicle _ _ _ _⟩⟩
  | created hfatal hopened hfree hstatic hpaid body hmode hnone hsuccess code nrgLeft ih =>
      exact List.forall_mem_cons.mpr ⟨answeredBy_of_ne (by simp),
        List.forall_mem_append.mpr ⟨List.forall_mem_append.mpr
          ⟨ih, List.forall_mem_singleton.mpr (answeredBy_of_ne (by simp))⟩,
          answeredBy_leaveChronicle _ _ _ _⟩⟩
  | givenUp h => exact List.forall_mem_singleton.mpr (answeredBy_of_ne (by simp))
  | _ => exact List.forall_mem_nil _

/-! ### Calls and creations, with their outcomes -/

/-- A call or a creation that is let in: its work is guarded by a checkpoint, and the outcome is
the one of leaving its frame. The whole is a course. -/
inductive Guarded (setting : Setting) (frames : List Frame) (s : Executor) :
    List Moment → CallOutcome → Executor → Prop
  | intro {t u : Executor} {moments : List Moment} {exit : Exit} (hfatal : s.fatal = none)
      (opening : Executor) (body : Activity setting frames s.checkpoint.2 moments t)
      (ends : Ends t u exit) (output : Bytes) (nrgLeft : Nrg)
      (course : Course setting frames s
        (⟨frames, opening, .opened⟩ ::
          (moments ++ leaveChronicle setting frames s.checkpoint.1 exit output nrgLeft u))
        (u.leave setting s.checkpoint.1 exit output nrgLeft).2) :
      Guarded setting frames s
        (⟨frames, opening, .opened⟩ ::
          (moments ++ leaveChronicle setting frames s.checkpoint.1 exit output nrgLeft u))
        (u.leave setting s.checkpoint.1 exit output nrgLeft).1
        (u.leave setting s.checkpoint.1 exit output nrgLeft).2

/-- A call that is refused, or else let in. -/
inductive Called (setting : Setting) (frames : List Frame) (s : Executor) :
    List Moment → CallOutcome → Executor → Prop
  /-- The call is refused before anything is touched; with a fatal condition only if that one is
  latched already. -/
  | refused {t : Executor} (noted : Noted s t) (failure : Failure)
      (hfailure : ∀ cause, failure = .aborted cause → s.fatal = some cause) (nrgLeft : Nrg) :
      Called setting frames s [] (.failed failure nrgLeft) t
  /-- The call is let in. -/
  | letIn {s₁ t₁ t : Executor} {moments : List Moment} {outcome : CallOutcome}
      (before : Noted s s₁) (frame : Guarded setting frames s₁ moments outcome t₁)
      (after : Noted t₁ t) : Called setting frames s moments outcome t

/-- The nonce that a creation claims is incremented outside its checkpoint where the increment
survives a failure, and not yet where it does not. -/
def Claimed (setting : Setting) (creator : Address) (s t : Executor) : Prop :=
  if setting.config.noncePersistsOnFailure then s.incNonce creator = .ok t else t = s

/-- A creation that is refused, cannot claim its nonce, or is let in. -/
inductive Created (setting : Setting) (frames : List Frame) (creator : Address) (s : Executor) :
    List Moment → CreateOutcome → Executor → Prop
  /-- The creation is refused before an address is derived; with a fatal condition only if that
  one is latched already. -/
  | refused {t : Executor} (noted : Noted s t) (failure : Failure)
      (hfailure : ∀ cause, failure = .aborted cause → s.fatal = some cause) (nrgLeft : Nrg) :
      Created setting frames creator s [] (.failed none failure nrgLeft) t
  /-- The nonce cannot be incremented, which is found before the checkpoint is taken. -/
  | unclaimed {s₁ t : Executor} (before : Noted s s₁)
      (hpersists : setting.config.noncePersistsOnFailure = true) {halt : Halt}
      (hclaimed : s₁.incNonce creator = .error halt) (after : Noted s₁ t) (address : Address)
      (nrgLeft : Nrg) :
      Created setting frames creator s [] (.failed (some address) (.halted halt) nrgLeft) t
  /-- The nonce cannot be incremented, which is found after the checkpoint was taken. -/
  | givenUp {s₁ : Executor} (before : Noted s s₁)
      (hpersists : setting.config.noncePersistsOnFailure = false) {entry : Entry}
      (hentry : entry.isRemark = true) (halt : Halt) (address : Address) (nrgLeft : Nrg) :
      Created setting frames creator s
        [⟨frames, s₁.checkpoint.2,
          .settled .restore (s₁.checkpoint.2.settle setting s₁.checkpoint.1 .restore).1⟩]
        (.failed (some address) (.halted halt) nrgLeft)
        ((s₁.checkpoint.2.note entry).settleOrLatch setting s₁.checkpoint.1 .restore)
  /-- The creation is let in. -/
  | letIn {s₁ s₂ t : Executor} {moments : List Moment} {outcome : CallOutcome}
      (before : Noted s s₁) (hstatic : s.isStatic = false)
      (claimed : Claimed setting creator s₁ s₂) (hfatal : s.fatal = none)
      (called : Called setting frames s₂ moments outcome t) (address : Address) :
      Created setting frames creator s moments { outcome with address := some address } t

theorem Guarded.course {outcome : CallOutcome}
    (h : Guarded setting frames s moments outcome t) : Course setting frames s moments t := by
  cases h with
  | intro hfatal opening body ends output nrgLeft course => exact course

theorem Called.course {outcome : CallOutcome} (h : Called setting frames s moments outcome t) :
    Course setting frames s moments t := by
  cases h with
  | refused noted => exact noted.course
  | letIn before frame after => exact before.course.after (frame.course.before after.course)

theorem Noted.isStatic_eq (h : Noted s t) : t.isStatic = s.isStatic := by
  induction h with
  | refl => rfl
  | note _ _ _ ih => exact ih

theorem Created.course {creator : Address} {outcome : CreateOutcome}
    (h : Created setting frames creator s moments outcome t) :
    Course setting frames s moments t := by
  cases h with
  | refused noted => exact noted.course
  | unclaimed before _ _ after => exact before.course.after after.course
  | givenUp before _ hentry => exact before.course.after (.givenUp hentry)
  | letIn before hstatic claimed _ called =>
      unfold Claimed at claimed
      split at claimed
      · have hmode := before.isStatic_eq.trans hstatic
        exact before.course.after ((Course.nonce hmode claimed).after called.course)
      · subst claimed
        exact before.course.after called.course

theorem Called.activity {outcome : CallOutcome} (h : Called setting frames s moments outcome t) :
    Activity setting frames s moments t := h.course.activity

theorem Created.activity {creator : Address} {outcome : CreateOutcome}
    (h : Created setting frames creator s moments outcome t) :
    Activity setting frames s moments t := h.course.activity

end Executor

end MessageCalls

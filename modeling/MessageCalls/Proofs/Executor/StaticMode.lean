import MessageCalls.Proofs.Executor.Rollback
/-!
# MessageCalls.Proofs.Executor.StaticMode

**A call in static mode cannot change the state** (`Executor.frozen_callWith`), be it a static call
or a call of any kind made by a static frame: nothing is written, no log is emitted, and at every
point inside, at any depth, whatever would modify the state is refused.

In static mode no rule of `Executor.Activity` that writes applies, a frame passes its mode on to the
frames that it enters, and a checkpoint guards nothing that it could keep or undo
(`Executor.Activity.frozen`).
-/

namespace MessageCalls

/-- The answer refuses what would modify the state: a write to storage, a log, a creation, or a
call that moves a value other than zero. -/
def Request.Refused : (r : Request) → r.Answer → Prop
  | .setStorage _ _ _, answer => answer = .error .staticModeViolation
  | .log _, answer => answer = .error .staticModeViolation
  | .create _ _ _ _, answer => answer = .failed none (.halted .staticModeViolation) 0
  | .call kind _ _ _ _ value, answer =>
    kind.movesValue = true → value ≠ 0 → answer = .failed (.halted .staticModeViolation) 0
  | _, _ => True

/-- What may happen in static mode: code runs in static frames only, no code is deposited, and a
request that would modify the state is refused. -/
def Moment.Frozen (m : Moment) : Prop :=
  match m.act with
  | .asked r answer => m.state.isStatic = true ∧ r.Refused answer
  | .entered _ frame => frame.isStatic = true
  | .deposited _ _ => False
  | _ => True

namespace Executor

variable {setting : Setting} {frames : List Frame} {s t u : Executor} {moments : List Moment}

/-! ### Requests -/

/-- **The machine refuses every modification in static mode**, whatever room there is for
frames. -/
theorem refused_answer (setting : Setting) (room : Option FrameRunner) (r : Request)
    (h : s.isStatic = true) : r.Refused (answer setting room r s).1 := by
  cases r with
  | setStorage a key value =>
      show (answer setting room (.setStorage a key value) s).1 = .error .staticModeViolation
      rw [answer, if_pos h]
  | log entry =>
      show (answer setting room (.log entry) s).1 = .error .staticModeViolation
      rw [answer, if_pos h]
  | create caller init nrg value =>
      show (createWith setting room caller (.legacy caller.address) init nrg value s).1 =
        .failed none (.halted .staticModeViolation) 0
      rw [createWith, if_pos h]
  | call kind caller target input nrg value =>
      intro hmoves hvalue
      show (callWith setting room kind caller target input nrg value s).1 =
        .failed (.halted .staticModeViolation) 0
      rw [callWith, if_pos (by simpa [h, hmoves] using hvalue)]
  | _ => exact trivial

/-! ### Frames -/

theorem frozen_leaveChronicle (point : Checkpoint) (exit : Exit) (output : Bytes) (nrgLeft : Nrg)
    (s : Executor) :
    ∀ m ∈ leaveChronicle setting frames point exit output nrgLeft s, m.Frozen := by
  cases exit <;> simp [leaveChronicle, raisedBy, Moment.Frozen]

/-- The moments of a frame that is let in and left are frozen if those in between are. -/
theorem frozen_guarded {opening : Executor} (h : ∀ m ∈ moments, m.Frozen) (point : Checkpoint)
    (exit : Exit) (output : Bytes) (nrgLeft : Nrg) (s : Executor) :
    ∀ m ∈ ⟨frames, opening, .opened⟩ ::
      (moments ++ leaveChronicle setting frames point exit output nrgLeft s), m.Frozen := by
  rw [List.forall_mem_cons, List.forall_mem_append]
  exact ⟨trivial, h, frozen_leaveChronicle point exit output nrgLeft s⟩

/-- Where the code of a frame changed nothing, the frame changed nothing. -/
theorem Unchanged.backTo {frame : Frame} {entry : Entry}
    (h : Unchanged ((s.inside frame).note entry) t) : Unchanged s (t.backTo s) :=
  ⟨h.stored, h.current, h.layers, h.logs, rfl, rfl⟩

/-- Work that comes to an end has done nothing more, or else it has failed. -/
theorem Ends.eq_or_failed {exit : Exit} (h : Ends t u exit) : u = t ∨ exit.isSuccess = false := by
  cases h with
  | reported => exact Or.inl rfl
  | @unpaid u transfer failure h => exact Or.inr failure.isSuccess_exit
  | collided address => exact Or.inr rfl

theorem isSuccess_finalExit {exit : Exit} (h : exit.isSuccess = false) (s : Executor) :
    (s.finalExit exit).isSuccess = false := by
  unfold finalExit
  cases s.fatal with
  | some cause => rfl
  | none => exact h

/-- **Work that changed nothing changes nothing**, also when its frame succeeds. -/
theorem LeavesAs.unchanged_of_ends {exit : Exit} {output : Bytes} {nrgLeft : Nrg}
    {outcome : CallOutcome} {v : Executor} (h : LeavesAs s u exit output nrgLeft outcome v)
    (ends : Ends t u exit) (hidle : Unchanged s.checkpoint.2 t) : Unchanged s v := by
  -- A success commits an empty layer; a failure undoes whatever a failed transfer left behind.
  obtain rfl | hfailed := ends.eq_or_failed
  · exact h.idle hidle
  · refine h.unchanged ?_
    rw [h.outcome_eq, Exit.isSuccess_outcome, isSuccess_finalExit hfailed]

/-- **Every activity in static mode is frozen.** -/
theorem Activity.frozen (hreliable : Reliable setting) (h : Activity setting frames s moments t)
    (hstatic : s.isStatic = true) : Unchanged s t ∧ ∀ m ∈ moments, m.Frozen := by
  have hwrites : ∀ {s : Executor}, s.isStatic = false → s.isStatic = true → False := by
    intro s hmodifies hs
    rw [hmodifies] at hs
    cases hs
  induction h with
  | rest frames s => exact ⟨.refl s, by simp⟩
  | andThen first second ih ih' =>
      obtain ⟨hfirst, hmoments⟩ := ih hstatic
      obtain ⟨hsecond, hlater⟩ := ih' (hfirst.isStatic.trans hstatic)
      exact ⟨hfirst.trans hsecond, List.forall_mem_append.mpr ⟨hmoments, hlater⟩⟩
  | note frames s entry h => exact ⟨.note s entry, by simp⟩
  | stepLog frames s entry => exact ⟨⟨rfl, rfl, rfl, rfl, rfl, rfl⟩, by simp⟩
  -- The rules that write do not apply in static mode.
  | log h entry => exact (hwrites h hstatic).elim
  | storage h a k v => exact (hwrites h hstatic).elim
  | transfer h hpaid => exact (hwrites h hstatic).elim
  | nonce h hclaimed => exact (hwrites h hstatic).elim
  | deposit h hfatal a code => exact (hwrites h hstatic).elim
  | asked frames s room r =>
      have hrefused := refused_answer setting room r hstatic
      exact ⟨.refl s, List.forall_mem_singleton.mpr ⟨hstatic, hrefused⟩⟩
  | @native frames s hfatal a => exact ⟨.refl s, List.forall_mem_singleton.mpr trivial⟩
  | @entered frames s t moments code frame hfatal hcode hmode hdepth body ih =>
      obtain ⟨hinside, hmoments⟩ := ih (hmode hstatic)
      exact ⟨hinside.backTo, List.forall_mem_cons.mpr ⟨hmode hstatic, hmoments⟩⟩
  | @guarded frames s t u moments exit hfatal opening body ends output nrgLeft ih =>
      obtain ⟨hidle, hmoments⟩ := ih hstatic
      have hleaves := leavesAs_of_ends hreliable hidle.toExtends ends output nrgLeft
      exact ⟨hleaves.unchanged_of_ends ends hidle, frozen_guarded hmoments _ exit output nrgLeft u⟩
  | @givenUp frames s entry h =>
      have hsettles := settlesAs_givenUp hreliable s entry
      exact ⟨hsettles.restored rfl, List.forall_mem_singleton.mpr trivial⟩

/-! ### Static calls -/

section Room

variable {runner : FrameRunner} {recorder : FrameRecorder} {c : Call}

/-- A static call may be made from a frame that is not static; what answers it is. -/
theorem frozen_answerCall (hreliable : Reliable setting) (hruns : RunsAs setting runner recorder)
    (hstatic : c.isStatic = true) :
    Unchanged s (answerCall setting runner c s).2 ∧
      ∀ m ∈ answerCallChronicle setting recorder frames c s, m.Frozen := by
  unfold answerCall answerCallChronicle
  cases hnative : setting.natives.run c.codeAddress c.input c.nrg.limit c.identity with
  | some result =>
      refine ⟨?_, List.forall_mem_singleton.mpr trivial⟩
      dsimp only
      split
      · exact .note s _
      · exact .refl s
  | none =>
      dsimp only
      generalize s.accounts.code c.codeAddress = code
      have hframe : (c.frame (s.tx.depth + 1)).isStatic = true := hstatic
      generalize c.frame (s.tx.depth + 1) = frame at hframe ⊢
      -- The frame is static although the state may not be: `Activity.frozen` holds inside.
      unfold enter enterChronicle
      by_cases hcode : code.isEmpty = true
      · rw [if_pos hcode, if_pos hcode]
        exact ⟨.refl s, by simp⟩
      · rw [if_neg hcode, if_neg hcode]
        obtain ⟨moments, hrecorded, hbody⟩ := hruns frames code frame (s.inside frame)
        obtain ⟨hinside, hmoments⟩ := hbody.activity.frozen hreliable hframe
        rw [hrecorded]
        exact ⟨hinside.backTo, List.forall_mem_cons.mpr ⟨hframe, hmoments⟩⟩

theorem frozen_carryOut {room : Option FrameRunner} (hreliable : Reliable setting)
    (hruns : ∀ runner, room = some runner → RunsAs setting runner recorder)
    (htransfer : c.transfer = none) (hstatic : c.isStatic = true) :
    Unchanged s (carryOut setting room c s).2 ∧
      ∀ m ∈ carryOutChronicle setting room recorder frames c s, m.Frozen := by
  unfold carryOut carryOutChronicle
  have hnoted : Unchanged s (s.note (.event (.call c))) := .note s _
  generalize s.note (.event (.call c)) = s₁ at hnoted ⊢
  dsimp only
  cases hpre : s₁.preflight room c.payer c.value with
  | error failure => exact ⟨(hnoted.trans (.note s₁ _)).trans (.note _ _), by simp⟩
  | ok runner =>
      obtain ⟨-, hroom⟩ := fatal_of_preflight hpre
      rw [htransfer]
      obtain ⟨hidle, hmoments⟩ := frozen_answerCall (s := s₁.checkpoint.2) hreliable
        (hruns runner hroom) hstatic
      have hleaves := leavesAs_leave hreliable hidle.toExtends
        (answerCall setting runner c s₁.checkpoint.2).1.exit
        (answerCall setting runner c s₁.checkpoint.2).1.output
        (answerCall setting runner c s₁.checkpoint.2).1.nrgLeft
      exact ⟨(hnoted.trans (hleaves.idle hidle)).trans (.note _ _),
        frozen_guarded hmoments _ _ _ _ _⟩

end Room

/-- What is resolved in static mode, or for a static call, moves no value and runs statically. -/
theorem resolve_static {kind : CallKind} {isStatic : Bool}
    (h : kind = .staticCall ∨ isStatic = true) (caller : Identity) (target : Address)
    (input : Bytes) (nrg : Budget) (value : Amount) :
    (kind.resolve isStatic caller target input nrg value).transfer = none ∧
      (kind.resolve isStatic caller target input nrg value).isStatic = true := by
  rcases h with rfl | rfl
  · cases isStatic <;> exact ⟨rfl, rfl⟩
  · exact ⟨rfl, rfl⟩

/-- **A static call, or any call made in static mode, leaves the state as it was**, and at every
point inside it whatever would modify the state is refused. -/
theorem frozen_callWith (setting : Setting) (hreliable : Reliable setting) (room : Nat)
    (frames : List Frame) (s : Executor) (kind : CallKind) (caller : Identity) (target : Address)
    (input : Bytes) (nrg : Budget) (value : Amount)
    (h : kind = .staticCall ∨ s.isStatic = true) :
    (callWith setting (runner setting room) kind caller target input nrg value s).2.footprint =
        s.footprint ∧
      ∀ m ∈ callChronicle setting (runner setting room) (recorder setting room) frames kind caller
        target input nrg value s, m.Frozen := by
  have hcarried : Unchanged s
        (callWith setting (runner setting room) kind caller target input nrg value s).2 ∧
      ∀ m ∈ callChronicle setting (runner setting room) (recorder setting room) frames kind caller
        target input nrg value s, m.Frozen := by
    unfold callWith callChronicle
    split
    · exact ⟨.refl s, by simp⟩
    · obtain ⟨htransfer, hstatic⟩ := resolve_static h caller target input nrg value
      exact frozen_carryOut hreliable (runsAs_recorder setting room) htransfer hstatic
  exact ⟨hcarried.1.footprint_eq, hcarried.2⟩

/-- A static call of a contract that tries to write and to pay, and calls another one without
value, which tries to log; both succeed all the same. -/
theorem frozen_obstinate_code :
    let interpreter : Interpreter := fun code frame =>
      if code = [1] then do
        let _ ← Program.request (.setStorage frame.identity.address 0 7)
        let _ ← Program.request (.call .call frame.identity 6 [] frame.nrg 3)
        let _ ← Program.request (.call .call frame.identity 6 [] frame.nrg 0)
        pure (.returned [9] 5)
      else do
        let _ ← Program.request (.log ⟨frame.identity.address, [], []⟩)
        pure (.stopped 1)
    let setting := homesteadWith interpreter
    let s := withTwoContracts 2
    let called := callWith setting (runner setting 3) .staticCall (.external 1) 5 [] ⟨90, 1⟩ 20 s
    let moments := callChronicle setting (runner setting 3) (recorder setting 3) [] .staticCall
      (.external 1) 5 [] ⟨90, 1⟩ 20 s
    Reliable setting ∧ called.1 = ⟨.ok [9], 5⟩ ∧
      (moments.filterMap Moment.entered?).map (fun entry => entry.2.codeAddress) = [5, 6] ∧
      called.2.footprint = s.footprint ∧ ∀ m ∈ moments, m.Frozen := by
  intro interpreter setting s called moments
  have hreliable : Reliable setting := fun _ _ => rfl
  refine ⟨hreliable, rfl, by decide +kernel, ?_⟩
  exact frozen_callWith setting hreliable 3 [] s .staticCall (.external 1) 5 [] ⟨90, 1⟩ 20
    (Or.inl rfl)

end Executor

end MessageCalls

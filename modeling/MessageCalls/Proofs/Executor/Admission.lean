import Mathlib.Data.Option.Basic
import MessageCalls.Proofs.Executor.Ancestry
import MessageCalls.Proofs.Executor.Readings
import MessageCalls.Proofs.Overlay.Transfers
/-!
# MessageCalls.Proofs.Executor.Admission

Which message calls are refused, and at what price. `Executor.callRefusal?` lists the reasons in the
order in which they count; each of them is a condition on the state in which the call is made. **A
call is refused for the first of them that holds, and if none holds it is let in**
(`Executor.decided_call`): its value moves, and then one of a native contract, the code and nobody
answers it. Whoever could have answered a refused call has no say in it.

The steps that calls and creations share have lemmas of their own: the checks made before anything
is touched (`Executor.preflights`), the movement of value (`Executor.pays`), and the entering of a
frame (`Executor.entered_enter`).
-/

namespace MessageCalls

/-- Somebody is asked to answer: a native contract, or the interpreter. -/
def Moment.consults (m : Moment) : Bool :=
  match m.act with
  | .native _ | .entered _ _ => true
  | _ => false

namespace Executor

variable {setting : Setting} {frames : List Frame} {s t u : Executor} {moments : List Moment}

/-- The interpreter runs some code, with room for so many frames nested in its own. -/
def interpret (setting : Setting) (room : Nat) : FrameRunner := fun code frame s =>
  (setting.interpreter code frame).run (answer setting (runner setting room))
    (s.note (.frame code frame s.tx.depth s.isStatic))

theorem runsAs_interpret (setting : Setting) (room : Nat) :
    RunsAs setting (interpret setting room) (recorder setting (room + 1)) :=
  runsAs_recorder setting (room + 1) _ rfl

/-! ### The checks before anything is touched -/

/-- How the checks come out that every call and every creation has to pass. -/
inductive Preflight (setting : Setting) (s : Executor) (payer : Address) (value : Amount) :
    Except Failure FrameRunner → Prop
  /-- A fatal condition is latched. -/
  | latched {cause : Abort} (hfatal : s.fatal = some cause) :
      Preflight setting s payer value (.error (.aborted cause))
  /-- There is no room for another frame. -/
  | crowded (hfatal : s.fatal = none) (hfull : setting.config.callStackLimit.toNat ≤ s.tx.depth) :
      Preflight setting s payer value (.error (.halted .depthExceeded))
  /-- The payer cannot afford the value. -/
  | unaffordable (hfatal : s.fatal = none)
      (hroom : s.tx.depth < setting.config.callStackLimit.toNat)
      (hshort : (s.accounts.balance payer).toNat < value.toNat) :
      Preflight setting s payer value (.error (.halted .insufficientBalance))
  /-- The checks are passed, and there is room for the frame and some more. -/
  | passed {room : Nat} (hfatal : s.fatal = none) (hroom : s.room setting = room + 1)
      (hpaid : value.toNat ≤ (s.accounts.balance payer).toNat) :
      Preflight setting s payer value (.ok (interpret setting room))

theorem preflights (setting : Setting) (s : Executor) (payer : Address) (value : Amount) :
    Preflight setting s payer value
      (s.preflight (runner setting (s.room setting)) payer value) := by
  unfold preflight
  cases hfatal : s.fatal with
  | some cause => exact .latched hfatal
  | none =>
      cases hroom : s.room setting with
      | zero => exact .crowded hfatal (Nat.sub_eq_zero_iff_le.mp hroom)
      | succ room =>
          have hbelow : s.tx.depth < setting.config.callStackLimit.toNat := by
            rw [Executor.room] at hroom
            omega
          simp only [runner]
          split
          · next hshort => exact .unaffordable hfatal hbelow (BitVec.lt_def.mp hshort)
          · next hpaid =>
              exact .passed hfatal hroom (by simpa [BitVec.lt_def] using hpaid)

theorem Preflight.depth_lt {payer : Address} {value : Amount} {run : FrameRunner}
    (h : Preflight setting s payer value (.ok run)) :
    s.tx.depth < setting.config.callStackLimit.toNat := by
  cases h with
  | passed hfatal hroom hpaid =>
      rw [Executor.room] at hroom
      omega

theorem affordable_of_preflight {room : Option FrameRunner} {payer : Address} {value : Amount}
    {run : FrameRunner} (h : s.preflight room payer value = .ok run) :
    value.toNat ≤ (s.accounts.balance payer).toNat := by
  unfold preflight at h
  split at h
  · cases h
  · split at h
    · cases h
    · split at h
      · cases h
      · next hpaid => simpa [BitVec.lt_def] using hpaid

/-! ### The movement of value -/

/-- The value of a call, if it moves any, has moved, and nothing else has happened. -/
structure Paid (s : Executor) (transfer : Option Transfer) (t : Executor) : Prop where
  moved : ∀ tr ∈ transfer, s.accounts.view.Moved tr t.accounts.view
  unmoved : transfer = none → t.accounts.view = s.accounts.view
  tx : t.tx = s.tx
  isStatic : t.isStatic = s.isStatic
  fatal : t.fatal = s.fatal

/-- How the movement of a value comes out that the payer can afford. -/
inductive Pays (s : Executor) (transfer : Option Transfer) : Except Failure Unit → Executor → Prop
  /-- The target is another account, which cannot hold the value. -/
  | overflowing {tr : Transfer} {t : Executor} (htransfer : transfer = some tr)
      (hother : tr.source ≠ tr.target)
      (hfull : 2 ^ 256 ≤ (s.accounts.balance tr.target).toNat + tr.value.toNat) :
      Pays s transfer (.error (.aborted .balanceOverflow)) t
  /-- The value moves. -/
  | paid {t : Executor}
      (hfits : ∀ tr ∈ transfer, tr.source ≠ tr.target →
        (s.accounts.balance tr.target).toNat + tr.value.toNat < 2 ^ 256)
      (h : Paid s transfer t) : Pays s transfer (.ok ()) t

theorem balance_checkpoint (s : Executor) :
    s.checkpoint.2.accounts.balance = s.accounts.balance :=
  congrArg AccountView.balance (view_checkpoint s)

/-- What the payer of a call can afford is what its transfer moves. -/
theorem affordable_of_payer {c : Call} {balance : Address → Amount}
    (h : c.value.toNat ≤ (balance c.payer).toNat) :
    ∀ tr ∈ c.transfer, tr.value.toNat ≤ (balance tr.source).toNat := by
  intro tr htr
  rw [Call.value, Call.payer, Option.mem_def.mp htr] at h
  exact h

/-- **A value that the payer can afford moves, unless the target cannot hold it.** -/
theorem pays {transfer : Option Transfer}
    (haffordable : ∀ tr ∈ transfer, tr.value.toNat ≤ (s.accounts.balance tr.source).toNat) :
    Pays s transfer (s.pay transfer).1 (s.pay transfer).2 := by
  cases transfer with
  | none => exact .paid (by simp) ⟨by simp, fun _ => rfl, rfl, rfl, rfl⟩
  | some tr =>
      have hpaid := haffordable tr rfl
      have htransfers := s.accounts.transfers tr
      show Pays s (some tr) (s.transfer tr).1 (s.transfer tr).2
      unfold Executor.transfer
      generalize s.accounts.transfer tr = moved at htransfers
      obtain ⟨result, accounts⟩ := moved
      cases htransfers with
      | unaffordable hshort => exact absurd hpaid (Nat.not_le.mpr hshort)
      | overflowing _ hother hfull => exact .overflowing rfl hother hfull
      | moved _ hfits hmoved =>
          refine .paid (fun tr' htr' => ?_) ⟨fun tr' htr' => ?_, by simp, rfl, rfl, rfl⟩
          · obtain rfl := Option.mem_some.mp htr'
            exact hfits
          · obtain rfl := Option.mem_some.mp htr'
            exact hmoved

/-- Behind its checkpoint a call that its payer can afford is too much for its target, or is
paid. -/
theorem overflowing_or_paid (s : Executor) {c : Call}
    (h : c.value.toNat ≤ (s.accounts.balance c.payer).toNat) :
    (∃ tr ∈ c.transfer, tr.source ≠ tr.target ∧
        2 ^ 256 ≤ (s.accounts.balance tr.target).toNat + tr.value.toNat) ∧
      (∃ paid, s.checkpoint.2.pay c.transfer = (.error (.aborted .balanceOverflow), paid)) ∨
    (¬ ∃ tr ∈ c.transfer, tr.source ≠ tr.target ∧
        2 ^ 256 ≤ (s.accounts.balance tr.target).toNat + tr.value.toNat) ∧
      ∃ paid, s.checkpoint.2.pay c.transfer = (.ok (), paid) ∧
        Paid s.checkpoint.2 c.transfer paid := by
  have hpays : Pays s.checkpoint.2 c.transfer _ _ :=
    pays (by rw [balance_checkpoint]; exact affordable_of_payer h)
  generalize s.checkpoint.2.pay c.transfer = ended at hpays
  obtain ⟨result, paid⟩ := ended
  cases hpays with
  | @overflowing tr _ htransfer hother hfull =>
      rw [balance_checkpoint] at hfull
      exact .inl ⟨⟨tr, htransfer, hother, hfull⟩, paid, rfl⟩
  | paid hfits hmoved =>
      refine .inr ⟨?_, paid, rfl, hmoved⟩
      rintro ⟨tr, htr, hother, hfull⟩
      have hsum := hfits tr htr hother
      rw [balance_checkpoint] at hsum
      exact absurd hsum (Nat.not_lt.mpr hfull)

/-! ### Who answers -/

/-- What becomes of a frame with some code. -/
inductive Entered (setting : Setting) (room : Nat) (frames : List Frame) (code : Bytes)
    (frame : Frame) (s : Executor) : List Moment → FrameResult → Executor → Prop
  /-- There is no code. -/
  | skipped (hcode : code = []) :
      Entered setting room frames code frame s [] (.stopped frame.nrg.limit) s
  /-- The interpreter runs the code. Whatever happens meanwhile happens inside the frame. -/
  | interpreted {inner : List Moment} (hcode : code ≠ [])
      (hinside : ∀ m ∈ inner, frame :: frames <:+ m.frames) :
      Entered setting room frames code frame s
        (⟨frames, s.inside frame, .entered code frame⟩ :: inner)
        (interpret setting room code frame (s.inside frame)).1
        ((interpret setting room code frame (s.inside frame)).2.backTo s)

/-- Who answers a call that was let in, and how. -/
inductive Answers (setting : Setting) (room : Nat) (frames : List Frame) (c : Call)
    (s : Executor) : List Moment → FrameResult → Executor → Prop
  /-- The native contract at the code address. -/
  | native {result : NativeResult} {t : Executor}
      (hnative : setting.natives.run c.codeAddress c.input c.nrg.limit c.identity = some result)
      (hnoted : Noted s t) :
      Answers setting room frames c s [⟨frames, s, .native c.codeAddress⟩]
        (result.report c.nrg.limit) t
  /-- The code at the code address, or nobody if there is none. -/
  | code {moments : List Moment} {result : FrameResult} {t : Executor}
      (hforeign : setting.natives.run c.codeAddress c.input c.nrg.limit c.identity = none)
      (hentered : Entered setting room frames (s.accounts.code c.codeAddress)
        (c.frame (s.tx.depth + 1)) s moments result t) :
      Answers setting room frames c s moments result t

theorem entered_enter (setting : Setting) (room : Nat) (frames : List Frame) (code : Bytes)
    (frame : Frame) (s : Executor) :
    Entered setting room frames code frame s
      (enterChronicle (recorder setting (room + 1)) frames code frame s)
      (enter (interpret setting room) code frame s).1
      (enter (interpret setting room) code frame s).2 := by
  unfold enterChronicle enter
  by_cases hcode : code.isEmpty = true
  · rw [if_pos hcode, if_pos hcode]
    exact .skipped (List.isEmpty_iff.mp hcode)
  · rw [if_neg hcode, if_neg hcode]
    obtain ⟨moments, hrecorded, hbody⟩ :=
      runsAs_interpret setting room frames code frame (s.inside frame)
    rw [hrecorded]
    exact .interpreted (by simpa using hcode) fun m hm => (hbody.around m hm).suffix

theorem answers_answerCall (setting : Setting) (room : Nat) (frames : List Frame) (c : Call)
    (s : Executor) :
    Answers setting room frames c s
      (answerCallChronicle setting (recorder setting (room + 1)) frames c s)
      (answerCall setting (interpret setting room) c s).1
      (answerCall setting (interpret setting room) c s).2 := by
  unfold answerCallChronicle answerCall
  cases hnative : setting.natives.run c.codeAddress c.input c.nrg.limit c.identity with
  | none => exact .code hnative (entered_enter setting room frames _ _ s)
  | some result =>
      refine .native hnative ?_
      dsimp only
      split
      · exact .note .refl _ rfl
      · exact .refl

theorem consults_leaveChronicle (point : Checkpoint) (exit : Exit) (output : Bytes)
    (nrgLeft : Nrg) :
    ∀ m ∈ leaveChronicle setting frames point exit output nrgLeft u, m.consults = false := by
  intro m hm
  obtain ⟨act, rfl, hplain⟩ := mem_leaveChronicle hm
  cases act <;> first | rfl | cases hplain

/-- What a frame that reported a result in `u` is left with: its outcome, and what remains of it. -/
structure LeftWith (before : Footprint) (u : Executor) (result : FrameResult)
    (outcome : CallOutcome) (t : Executor) : Prop where
  outcome_eq : outcome = (u.finalExit result.exit).outcome result.output result.nrgLeft
  fatal_eq : t.fatal = (u.finalExit result.exit).abort?
  kept : outcome.isSuccess = true → t.accounts.view = u.accounts.view ∧ t.tx = u.tx
  undone : outcome.isSuccess = false → t.footprint = before

theorem leftWith_leave (hreliable : Reliable setting) (h : Extends s.checkpoint.2 u)
    (result : FrameResult) :
    LeftWith s.footprint u result
      (u.leave setting s.checkpoint.1 result.exit result.output result.nrgLeft).1
      (u.leave setting s.checkpoint.1 result.exit result.output result.nrgLeft).2 := by
  have hleaves := leavesAs_leave hreliable h result.exit result.output result.nrgLeft
  refine ⟨hleaves.outcome_eq, hleaves.fatal, fun hsuccess => ?_,
    fun hfailed => (hleaves.unchanged hfailed).footprint_eq⟩
  rcases leave_cases hreliable h result.exit result.output result.nrgLeft with
    ⟨-, hkept⟩ | ⟨hfailed, -⟩
  · exact hkept
  · rw [hsuccess] at hfailed
    cases hfailed

theorem LeftWith.record {before : Footprint} {result : FrameResult} {outcome : CallOutcome}
    (h : LeftWith before u result outcome t) (r : Record) :
    LeftWith before u result outcome (t.record r) :=
  ⟨h.outcome_eq, h.fatal_eq, h.kept, h.undone⟩

/-! ### Refusals -/

/-- Something is refused: it comes out as said, nobody is asked, and it would come out so whoever
could have been asked. -/
structure Refused {α : Type} (setting : Setting) (run : Setting → α × Executor)
    (moments : List Moment) (outcome : α) (after : Footprint) (latched : Option Abort) : Prop where
  outcome_eq : (run setting).1 = outcome
  footprint_eq : (run setting).2.footprint = after
  fatal_eq : (run setting).2.fatal = latched
  silent : ∀ m ∈ moments, m.consults = false
  deaf : ∀ interpreter natives, run { setting with interpreter, natives } = run setting

/-- The price of a refusal by the checks does not depend on who would have run the frame. -/
theorem preflight_eq_error_of_isSome {room room' : Option FrameRunner}
    (hroom : room'.isSome = room.isSome) {payer : Address} {value : Amount} {failure : Failure}
    (h : s.preflight room payer value = .error failure) :
    s.preflight room' payer value = .error failure := by
  unfold preflight at h ⊢
  generalize s.fatal = latched at h ⊢
  cases latched with
  | some cause => exact h
  | none =>
      cases room with
      | none =>
          obtain rfl : room' = none := by simpa using hroom
          exact h
      | some run =>
          obtain ⟨run', rfl⟩ := Option.isSome_iff_exists.mp hroom
          dsimp only at h ⊢
          split at h
          · next hshort => rwa [if_pos hshort]
          · cases h

theorem isSome_runner (setting setting' : Setting) (room : Nat) :
    (runner setting' room).isSome = (runner setting room).isSome := by
  cases room <;> rfl

theorem preflight_of_passed {room : Nat} {payer : Address} {value : Amount}
    (hfatal : s.fatal = none) (hroom : s.room setting = room + 1)
    (hpaid : value.toNat ≤ (s.accounts.balance payer).toNat) :
    s.preflight (runner setting (s.room setting)) payer value = .ok (interpret setting room) := by
  have hshort : ¬ s.accounts.balance payer < value := by simpa [BitVec.lt_def] using hpaid
  unfold preflight
  rw [hfatal, hroom]
  exact if_neg hshort

/-! ### Message calls -/

/-- Why a message call is refused, by the first reason that applies, and the nrg handed back. -/
def callRefusal? (setting : Setting) (s : Executor) (kind : CallKind) (caller target : Address)
    (limit : Nrg) (value : Amount) : Option CallOutcome :=
  if s.isStatic = true ∧ kind.movesValue = true ∧ value ≠ 0 then
    some (.failed (.halted .staticModeViolation) 0)
  else if let some cause := s.fatal then
    some (.failed (.aborted cause) 0)
  else if setting.config.callStackLimit.toNat ≤ s.tx.depth then
    some (.failed (.halted .depthExceeded) limit)
  else if s.isStatic = false ∧ kind.movesValue = true ∧
      (s.accounts.balance caller).toNat < value.toNat then
    some (.failed (.halted .insufficientBalance) limit)
  else if s.isStatic = false ∧ kind = .call ∧ target ≠ caller ∧
      2 ^ 256 ≤ (s.accounts.balance target).toNat + value.toNat then
    some (.failed (.aborted .balanceOverflow) 0)
  else none

section Resolve

variable (balance : Address → Amount) (kind : CallKind) (isStatic : Bool) (caller : Identity)
  (target : Address) (input : Bytes) (nrg : Budget) (value : Amount)

/-- Only a call that moves value can be too expensive for its payer. -/
theorem unaffordable_resolve_iff :
    (balance (kind.resolve isStatic caller target input nrg value).payer).toNat <
        (kind.resolve isStatic caller target input nrg value).value.toNat ↔
      isStatic = false ∧ kind.movesValue = true ∧
        (balance caller.address).toNat < value.toNat := by
  cases isStatic <;> cases kind <;>
    simp [CallKind.resolve, CallKind.transfer?, CallKind.movesValue, Call.payer, Call.value]

/-- Only a call to another account can be too much for its target. -/
theorem overflowing_resolve_iff :
    (∃ t ∈ (kind.resolve isStatic caller target input nrg value).transfer, t.source ≠ t.target ∧
        2 ^ 256 ≤ (balance t.target).toNat + t.value.toNat) ↔
      isStatic = false ∧ kind = .call ∧ target ≠ caller.address ∧
        2 ^ 256 ≤ (balance target).toNat + value.toNat := by
  cases isStatic <;> cases kind <;>
    simp [CallKind.resolve, CallKind.transfer?, eq_comm]

end Resolve

section CarryOut

variable (setting : Setting) {room : Option FrameRunner} (recorder : FrameRecorder)
  (frames : List Frame) {c : Call} {failure : Failure} {run : FrameRunner} {paid : Executor}

theorem carryOut_of_preflight_error (h : s.preflight room c.payer c.value = .error failure) :
    carryOut setting room c s = (.failed failure (failure.refund c.nrg.limit),
      ((s.note (.event (.call c))).record (.callRejected c.codeAddress failure)).note
        (.event (.exit failure.exit []))) := by
  have hnoted : (s.note (.event (.call c))).preflight room c.payer c.value = .error failure := h
  simp only [carryOut, hnoted]

theorem carryOutChronicle_of_preflight_error
    (h : s.preflight room c.payer c.value = .error failure) :
    carryOutChronicle setting room recorder frames c s = [] := by
  have hnoted : (s.note (.event (.call c))).preflight room c.payer c.value = .error failure := h
  simp only [carryOutChronicle, hnoted]

theorem carryOut_of_pay_error (h : s.preflight room c.payer c.value = .ok run)
    (hpaid : (s.note (.event (.call c))).checkpoint.2.pay c.transfer = (.error failure, paid)) :
    carryOut setting room c s =
      paid.leave setting (s.note (.event (.call c))).checkpoint.1 failure.exit [] 0 := by
  have hnoted : (s.note (.event (.call c))).preflight room c.payer c.value = .ok run := h
  simp only [carryOut, hnoted, hpaid]

theorem carryOutChronicle_of_pay_error (h : s.preflight room c.payer c.value = .ok run)
    (hpaid : (s.note (.event (.call c))).checkpoint.2.pay c.transfer = (.error failure, paid)) :
    carryOutChronicle setting room recorder frames c s =
      ⟨frames, (s.note (.event (.call c))).checkpoint.2, .opened⟩ ::
        leaveChronicle setting frames (s.note (.event (.call c))).checkpoint.1 failure.exit [] 0
          paid := by
  have hnoted : (s.note (.event (.call c))).preflight room c.payer c.value = .ok run := h
  simp only [carryOutChronicle, hnoted, hpaid]

theorem carryOut_of_pay_ok (h : s.preflight room c.payer c.value = .ok run)
    (hpaid : (s.note (.event (.call c))).checkpoint.2.pay c.transfer = (.ok (), paid)) :
    let answered := answerCall setting run c paid
    let left := answered.2.leave setting (s.note (.event (.call c))).checkpoint.1 answered.1.exit
      answered.1.output answered.1.nrgLeft
    carryOut setting room c s =
      (left.1, left.2.record (.callFinished c.codeAddress s.tx.depth left.1)) := by
  have hnoted : (s.note (.event (.call c))).preflight room c.payer c.value = .ok run := h
  simp only [carryOut, hnoted, hpaid, tx_note]

theorem carryOutChronicle_of_pay_ok (h : s.preflight room c.payer c.value = .ok run)
    (hpaid : (s.note (.event (.call c))).checkpoint.2.pay c.transfer = (.ok (), paid)) :
    let answered := answerCall setting run c paid
    carryOutChronicle setting room recorder frames c s =
      ⟨frames, (s.note (.event (.call c))).checkpoint.2, .opened⟩ ::
        (answerCallChronicle setting recorder frames c paid ++
          leaveChronicle setting frames (s.note (.event (.call c))).checkpoint.1 answered.1.exit
            answered.1.output answered.1.nrgLeft answered.2) := by
  have hnoted : (s.note (.event (.call c))).preflight room c.payer c.value = .ok run := h
  simp only [carryOutChronicle, hnoted, hpaid]

end CarryOut

/-- A call that the checks refuse. -/
theorem refused_of_preflight {c : Call} {failure : Failure} (setting : Setting)
    (frames : List Frame) (hchecked : Preflight setting s c.payer c.value (.error failure))
    (h : s.preflight (runner setting (s.room setting)) c.payer c.value = .error failure) :
    Refused setting (fun setting => carryOut setting (runner setting (s.room setting)) c s)
      (carryOutChronicle setting (runner setting (s.room setting))
        (recorder setting (s.room setting)) frames c s)
      (.failed failure (failure.refund c.nrg.limit)) s.footprint
      (s.fatal.or (CallOutcome.failed failure (failure.refund c.nrg.limit)).abort?) := by
  have hrefused := carryOut_of_preflight_error setting h
  have hchronicle := carryOutChronicle_of_preflight_error setting
    (recorder setting (s.room setting)) frames h
  constructor
  case outcome_eq => exact congrArg Prod.fst hrefused
  case footprint_eq => rw [hrefused]; rfl
  case fatal_eq =>
    rw [hrefused]
    cases hchecked with
    | latched hfatal => rw [hfatal]; exact hfatal
    | crowded => exact (Option.or_none).symm
    | unaffordable => exact (Option.or_none).symm
  case silent =>
    intro m hm
    rw [hchronicle] at hm
    cases hm
  case deaf =>
    intro interpreter natives
    have h' := preflight_eq_error_of_isSome
      (isSome_runner setting { setting with interpreter, natives } (s.room setting)) h
    exact (carryOut_of_preflight_error _ h').trans hrefused.symm

/-- A call whose target cannot hold the value. -/
theorem refused_of_overflow {room : Nat} {c : Call} {paid : Executor} (hreliable : Reliable setting)
    (frames : List Frame) (hfatal : s.fatal = none) (hroom : s.room setting = room + 1)
    (haffordable : c.value.toNat ≤ (s.accounts.balance c.payer).toNat)
    (hpaid : (s.note (.event (.call c))).checkpoint.2.pay c.transfer =
      (.error (.aborted .balanceOverflow), paid)) :
    Refused setting (fun setting => carryOut setting (runner setting (s.room setting)) c s)
      (carryOutChronicle setting (runner setting (s.room setting))
        (recorder setting (s.room setting)) frames c s)
      (.failed (.aborted .balanceOverflow) 0) s.footprint
      (s.fatal.or (CallOutcome.failed (.aborted .balanceOverflow) 0).abort?) := by
  have hpassed := preflight_of_passed hfatal hroom haffordable
  have hrefused := carryOut_of_pay_error setting hpassed hpaid
  have hchronicle := carryOutChronicle_of_pay_error setting (recorder setting (s.room setting))
    frames hpassed hpaid
  have hnone : paid.fatal = none := (pay_fields hpaid).2.2.trans hfatal
  have hleft := leftWith_leave hreliable (extends_pay hpaid) (.aborted .balanceOverflow)
  have hexit : paid.finalExit (.aborted .balanceOverflow) = .aborted .balanceOverflow := by
    rw [finalExit, hnone]
  constructor
  case outcome_eq =>
    rw [hrefused]
    exact hleft.outcome_eq.trans (congrArg (Exit.outcome · [] 0) hexit)
  case footprint_eq =>
    rw [hrefused]
    refine (hleft.undone ?_).trans (Unchanged.note s _).footprint_eq
    rw [hleft.outcome_eq, Exit.isSuccess_outcome]
    exact congrArg Exit.isSuccess hexit
  case fatal_eq =>
    rw [hrefused, hfatal]
    exact hleft.fatal_eq.trans (congrArg Exit.abort? hexit)
  case silent =>
    intro m hm
    rw [hchronicle] at hm
    rcases List.mem_cons.mp hm with rfl | hleaving
    · rfl
    · exact consults_leaveChronicle _ _ _ _ m hleaving
  case deaf =>
    intro interpreter natives
    have hother : s.preflight (runner { setting with interpreter, natives } (s.room setting))
      c.payer c.value = .ok _ := preflight_of_passed hfatal hroom haffordable
    exact (carryOut_of_pay_error _ hother hpaid).trans hrefused.symm

/-- A call that is let in: its value moves, somebody or nobody answers it, and its frame is left. -/
inductive Admitted (setting : Setting) (frames : List Frame) (c : Call) (s : Executor) :
    List Moment → CallOutcome → Executor → Prop
  | intro {room : Nat} {opened paid answered t : Executor} {inner closing : List Moment}
      {result : FrameResult} {outcome : CallOutcome} (hfatal : s.fatal = none)
      (hroom : s.room setting = room + 1) (hpaid : Paid s c.transfer paid)
      (answers : Answers setting room frames c paid inner result answered)
      (left : LeftWith s.footprint answered result outcome t)
      (hclosing : ∀ m ∈ closing, m.consults = false) :
      Admitted setting frames c s (⟨frames, opened, .opened⟩ :: (inner ++ closing)) outcome t

theorem admitted_of_paid {room : Nat} {c : Call} {paid : Executor} (hreliable : Reliable setting)
    (frames : List Frame) (hfatal : s.fatal = none) (hroom : s.room setting = room + 1)
    (haffordable : c.value.toNat ≤ (s.accounts.balance c.payer).toNat)
    (hpaid : (s.note (.event (.call c))).checkpoint.2.pay c.transfer = (.ok (), paid))
    (hmoved : Paid (s.note (.event (.call c))).checkpoint.2 c.transfer paid) :
    Admitted setting frames c s
      (carryOutChronicle setting (runner setting (s.room setting))
        (recorder setting (s.room setting)) frames c s)
      (carryOut setting (runner setting (s.room setting)) c s).1
      (carryOut setting (runner setting (s.room setting)) c s).2 := by
  have hpassed := preflight_of_passed hfatal hroom haffordable
  have hcarried := carryOut_of_pay_ok setting hpassed hpaid
  have hchronicle := carryOutChronicle_of_pay_ok setting (recorder setting (s.room setting)) frames
    hpassed hpaid
  have hview : (s.note (.event (.call c))).checkpoint.2.accounts.view = s.accounts.view :=
    view_checkpoint (s.note (.event (.call c)))
  have hanswered := extends_answerCall (s := paid) hreliable (runsAs_interpret setting room) c
  have hleft := leftWith_leave hreliable ((extends_pay hpaid).trans hanswered)
    (answerCall setting (interpret setting room) c paid).1
  rw [hcarried, hchronicle, hroom]
  refine .intro hfatal hroom ⟨?_, ?_, hmoved.tx, hmoved.isStatic, hmoved.fatal⟩
    (answers_answerCall setting room frames c paid) (hleft.record _)
    (consults_leaveChronicle _ _ _ _)
  · rw [← hview]
    exact hmoved.moved
  · rw [← hview]
    exact hmoved.unmoved

/-- How a call comes out that is refused for some reason, or for none. -/
inductive Decided (setting : Setting) (frames : List Frame) (s : Executor) (kind : CallKind)
    (caller : Identity) (target : Address) (input : Bytes) (nrg : Budget) (value : Amount) :
    Option CallOutcome → Prop
  | refused {outcome : CallOutcome}
      (h : Refused setting (fun setting => call setting kind caller target input nrg value s)
        (callChronicle setting (runner setting (s.room setting)) (recorder setting (s.room setting))
          frames kind caller target input nrg value s)
        outcome s.footprint (s.fatal.or outcome.abort?)) :
      Decided setting frames s kind caller target input nrg value (some outcome)
  | letIn
      (h : Admitted setting frames (kind.resolve s.isStatic caller target input nrg value) s
        (callChronicle setting (runner setting (s.room setting)) (recorder setting (s.room setting))
          frames kind caller target input nrg value s)
        (call setting kind caller target input nrg value s).1
        (call setting kind caller target input nrg value s).2) :
      Decided setting frames s kind caller target input nrg value none

section Call

variable (frames : List Frame) {kind : CallKind} {caller : Identity} {target : Address}
  {input : Bytes} {nrg : Budget} {value : Amount}

/-- In static mode a call that would move a value is refused at once. -/
theorem decided_of_static (setting : Setting)
    (h : s.isStatic = true ∧ kind.movesValue = true ∧ value ≠ 0) :
    Decided setting frames s kind caller target input nrg value
      (some (.failed (.halted .staticModeViolation) 0)) := by
  have hviolates : (s.isStatic && kind.movesValue && value ≠ 0) = true := by
    simpa [h.1, h.2.1] using h.2.2
  have hcall : ∀ setting, call setting kind caller target input nrg value s =
      (.failed (.halted .staticModeViolation) 0, s) := fun _ => if_pos hviolates
  refine .refused ⟨congrArg Prod.fst (hcall setting), ?_, ?_, ?_, fun _ _ => ?_⟩
  · rw [hcall]
  · rw [hcall]
    exact (Option.or_none).symm
  · intro m hm
    rw [callChronicle, if_pos hviolates] at hm
    cases hm
  · rw [hcall, hcall]

/-- Any other call is decided as the call that it stands for is. -/
theorem decided_of_resolved (setting : Setting) (caller : Identity) (target : Address)
    (input : Bytes) (nrg : Budget)
    (h : ¬ (s.isStatic = true ∧ kind.movesValue = true ∧ value ≠ 0)) :
    (fun setting => call setting kind caller target input nrg value s) =
      (fun setting => carryOut setting (runner setting (s.room setting))
        (kind.resolve s.isStatic caller target input nrg value) s) ∧
    callChronicle setting (runner setting (s.room setting)) (recorder setting (s.room setting))
        frames kind caller target input nrg value s =
      carryOutChronicle setting (runner setting (s.room setting))
        (recorder setting (s.room setting)) frames
        (kind.resolve s.isStatic caller target input nrg value) s := by
  have hallowed : ¬ (s.isStatic && kind.movesValue && value ≠ 0) = true := by
    simpa [and_assoc] using h
  exact ⟨funext fun _ => if_neg hallowed, if_neg hallowed⟩

/-- **A call is refused for the first reason that applies, and let in if there is none.** -/
theorem decided_callRefusal (hreliable : Reliable setting) :
    Decided setting frames s kind caller target input nrg value
      (callRefusal? setting s kind caller.address target nrg.limit value) := by
  unfold callRefusal?
  by_cases hviolates : s.isStatic = true ∧ kind.movesValue = true ∧ value ≠ 0
  · rw [if_pos hviolates]
    exact decided_of_static frames setting hviolates
  rw [if_neg hviolates]
  obtain ⟨hcall, hchronicle⟩ :=
    decided_of_resolved frames setting caller target input nrg hviolates
  have hshort := unaffordable_resolve_iff s.accounts.balance kind s.isStatic caller target input
    nrg value
  have hfull := overflowing_resolve_iff s.accounts.balance kind s.isStatic caller target input
    nrg value
  have hchecked := preflights setting s
    (kind.resolve s.isStatic caller target input nrg value).payer
    (kind.resolve s.isStatic caller target input nrg value).value
  generalize hpre : s.preflight (runner setting (s.room setting)) _ _ = checked at hchecked
  cases hchecked with
  | latched hfatal =>
      have hrefused := refused_of_preflight setting frames (.latched hfatal) hpre
      rw [← hcall, ← hchronicle] at hrefused
      simp only [hfatal]
      exact .refused hrefused
  | crowded hfatal hcrowded =>
      have hrefused := refused_of_preflight setting frames (.crowded hfatal hcrowded) hpre
      rw [← hcall, ← hchronicle] at hrefused
      simp only [hfatal, if_pos hcrowded]
      exact .refused hrefused
  | unaffordable hfatal hroom hpoor =>
      have hrefused := refused_of_preflight setting frames (.unaffordable hfatal hroom hpoor) hpre
      rw [← hcall, ← hchronicle] at hrefused
      simp only [hfatal, if_neg (Nat.not_le.mpr hroom), if_pos (hshort.mp hpoor)]
      exact .refused hrefused
  | passed hfatal hroom hpaid =>
      have hbelow := Preflight.depth_lt (.passed hfatal hroom hpaid)
      have haffordable := fun hpoor => Nat.not_lt.mpr hpaid (hshort.mpr hpoor)
      simp only [hfatal, if_neg (Nat.not_le.mpr hbelow), if_neg haffordable]
      generalize hc : kind.resolve s.isStatic caller target input nrg value = c at *
      rcases (s.note (.event (.call c))).overflowing_or_paid hpaid with
        ⟨hoverflows, paid, hpay⟩ | ⟨hfits, paid, hpay, hmoved⟩
      · have hrefused := refused_of_overflow hreliable frames hfatal hroom hpaid hpay
        rw [← hcall, ← hchronicle] at hrefused
        rw [if_pos (hfull.mp hoverflows)]
        exact .refused hrefused
      · have hadmitted := admitted_of_paid hreliable frames hfatal hroom hpaid hpay hmoved
        rw [← hchronicle, ← congrFun hcall setting] at hadmitted
        rw [if_neg (fun h => hfits (hfull.mpr h))]
        exact .letIn (hc ▸ hadmitted)

end Call

/-! ### The value of a creation -/

theorem view_incNonce {a : Address} (h : s.incNonce a = .ok t) :
    (s.accounts.nonce a).toNat < 2 ^ 64 - 1 ∧
      t.accounts.view = s.accounts.view.setNonce a (s.accounts.nonce a + 1) := by
  unfold Executor.incNonce at h
  split at h
  · next accounts haccounts =>
      obtain ⟨hsmall, rfl⟩ := Overlay.incNonce_eq_ok_iff.mp haccounts
      cases h
      exact ⟨hsmall, Overlay.view_setNonce ..⟩
  · cases h

/-- A claimed nonce is the only change that a creation has made before its value moves. -/
theorem view_claimNonce {creator : Address} {point : Checkpoint}
    (h : claimNonce setting creator s = (.ok point, t)) :
    (s.accounts.nonce creator).toNat < 2 ^ 64 - 1 ∧
      t.accounts.view = s.accounts.view.setNonce creator (s.accounts.nonce creator + 1) := by
  unfold claimNonce at h
  split at h
  · cases hinc : s.incNonce creator with
    | error halt => simp [hinc] at h
    | ok claimed =>
        simp only [hinc] at h
        cases h
        obtain ⟨hsmall, hview⟩ := view_incNonce hinc
        exact ⟨hsmall, (view_checkpoint claimed).trans hview⟩
  · cases hinc : s.checkpoint.2.incNonce creator with
    | error halt => simp [hinc] at h
    | ok claimed =>
        simp only [hinc] at h
        cases h
        have hnonce : s.checkpoint.2.accounts.nonce = s.accounts.nonce :=
          congrArg AccountView.nonce (view_checkpoint s)
        have hclaimed := view_incNonce hinc
        rwa [hnonce, view_checkpoint] at hclaimed

section Unpaid

variable {room : Option FrameRunner} {run : FrameRunner} {failure : Failure} {paid : Executor}

/-- Once the checks are passed, the value of a call fails to move only if its target cannot hold
it. -/
theorem overflow_of_pay_error {c : Call} (h : s.preflight room c.payer c.value = .ok run)
    (hpay : s.checkpoint.2.pay c.transfer = (.error failure, paid)) :
    failure = .aborted .balanceOverflow := by
  have hpays : Pays s.checkpoint.2 c.transfer _ _ := pays (by
    rw [balance_checkpoint]
    exact affordable_of_payer (affordable_of_preflight h))
  rw [hpay] at hpays
  cases hpays with
  | overflowing => rfl

/-- So does the value of a creation. -/
theorem overflow_of_transfer_error {creator address : Address} {value : Amount}
    {point : Checkpoint} {claimed : Executor} (h : s.preflight room creator value = .ok run)
    (hclaim : claimNonce setting creator s = (.ok point, claimed))
    (hpay : claimed.transfer ⟨creator, address, value⟩ = (.error failure, paid)) :
    failure = .aborted .balanceOverflow := by
  have hbalance : claimed.accounts.balance = s.accounts.balance :=
    congrArg AccountView.balance (view_claimNonce hclaim).2
  have hpays : Pays claimed (some ⟨creator, address, value⟩) _ _ := pays (by
    rintro tr ⟨⟩
    rw [hbalance]
    exact affordable_of_preflight h)
  change Pays claimed _ (claimed.transfer _).1 (claimed.transfer _).2 at hpays
  rw [hpay] at hpays
  cases hpays with
  | overflowing => rfl

end Unpaid

/-- **A call is refused for the first reason that applies, and let in if there is none**; and when
the checks are passed, the value of a call or of a creation can only fail to move because its target
cannot hold it. -/
theorem decided_call (setting : Setting) (hreliable : Reliable setting) (frames : List Frame)
    (s : Executor) :
    (∀ kind caller target input nrg value,
      let refusal := callRefusal? setting s kind caller.address target nrg.limit value
      let moments := callChronicle setting (runner setting (s.room setting))
        (recorder setting (s.room setting)) frames kind caller target input nrg value s
      let called := call setting kind caller target input nrg value s
      (∀ outcome, refusal = some outcome →
        Refused setting (fun setting => call setting kind caller target input nrg value s) moments
          outcome s.footprint (s.fatal.or outcome.abort?)) ∧
      (refusal = none →
        Admitted setting frames (kind.resolve s.isStatic caller target input nrg value) s moments
          called.1 called.2)) ∧
    (∀ room (c : Call) run failure paid, s.preflight room c.payer c.value = .ok run →
      s.checkpoint.2.pay c.transfer = (.error failure, paid) →
      failure = .aborted .balanceOverflow) ∧
    ∀ room creator address value run point claimed failure paid,
      s.preflight room creator value = .ok run →
      claimNonce setting creator s = (.ok point, claimed) →
      claimed.transfer ⟨creator, address, value⟩ = (.error failure, paid) →
      failure = .aborted .balanceOverflow := by
  refine ⟨?_, fun _ _ _ _ _ => overflow_of_pay_error,
    fun _ _ _ _ _ _ _ _ _ => overflow_of_transfer_error⟩
  intro kind caller target input nrg value refusal moments called
  have hdecided : Decided setting frames s kind caller target input nrg value refusal :=
    decided_callRefusal frames hreliable
  constructor
  · intro outcome hrefusal
    rw [hrefusal] at hdecided
    cases hdecided with
    | refused h => exact h
  · intro hrefusal
    rw [hrefusal] at hdecided
    cases hdecided with
    | letIn h => exact h

/-- A call that fails in each of the five ways, and one that pays a contract, which reverts. -/
theorem decided_call_of_two_payers :
    let setting := homesteadWith fun _ _ => pure (.reverted [7] 5)
    let s := withTwoContracts 3
    let full : Executor := { s with accounts := { stored := Overlay.oneFull.view } }
    let refusal := fun (s : Executor) target value =>
      callRefusal? setting s .call 1 target 90 value
    Reliable setting ∧
      refusal { s with isStatic := true } 5 20 = some (.failed (.halted .staticModeViolation) 0) ∧
      refusal { s with fatal := some .unevenSnapshot } 5 20 =
        some (.failed (.aborted .unevenSnapshot) 0) ∧
      refusal (withTwoContracts 1024) 5 20 = some (.failed (.halted .depthExceeded) 90) ∧
      refusal s 5 51 = some (.failed (.halted .insufficientBalance) 90) ∧
      refusal full 2 3 = some (.failed (.aborted .balanceOverflow) 0) ∧
      (call setting .call (.external 1) 2 [] ⟨90, 1⟩ 3 full).2.footprint = full.footprint ∧
      refusal s 5 20 = none ∧
      Admitted setting [] (CallKind.call.resolve false (.external 1) 5 [] ⟨90, 1⟩ 20) s
        (callChronicle setting (runner setting (s.room setting)) (recorder setting (s.room setting))
          [] .call (.external 1) 5 [] ⟨90, 1⟩ 20 s)
        (call setting .call (.external 1) 5 [] ⟨90, 1⟩ 20 s).1
        (call setting .call (.external 1) 5 [] ⟨90, 1⟩ 20 s).2 := by
  intro setting s full refusal
  have hreliable : Reliable setting := fun _ _ => rfl
  have hfull : refusal full 2 3 = some (.failed (.aborted .balanceOverflow) 0) := rfl
  have hfree : refusal s 5 20 = none := rfl
  obtain ⟨hrefused, -⟩ :=
    (decided_call setting hreliable [] full).1 .call (.external 1) 2 [] ⟨90, 1⟩ 3
  obtain ⟨-, hadmitted⟩ :=
    (decided_call setting hreliable [] s).1 .call (.external 1) 5 [] ⟨90, 1⟩ 20
  exact ⟨hreliable, rfl, rfl, rfl, rfl, hfull, (hrefused _ hfull).footprint_eq, hfree,
    hadmitted hfree⟩

end Executor

end MessageCalls

import MessageCalls.Proofs.Executor.Courses
import MessageCalls.Proofs.Executor.Kept
/-!
# MessageCalls.Proofs.Executor.Logging

**An operation adds the logs of the frames that were not undone, and no others**
(`Executor.logged_operate`): those accepted from code all of whose frames, its own included, are
left with a success, in the order of emission. What is recorded of single steps stays in any case.

The logs that are kept are read off the moments of the operation (`keptLogs`). The machine drops
logs by a number remembered at the checkpoint of a frame instead; that the two agree is an induction
on the course (`Executor.Course.logs_eq`).
-/

namespace MessageCalls

namespace Moment

/-- The log that running code emits, unless it is refused. -/
def emitted? (m : Moment) : Option Log :=
  match m.act with
  | .asked (.log entry) (.ok ()) => some entry
  | _ => none

/-- The step that running code records. -/
def recorded? (m : Moment) : Option StepLog :=
  match m.act with
  | .asked (.stepLog entry) _ => some entry
  | _ => none

end Moment

/-- The logs emitted by code none of whose frames is left with a failure. -/
def keptLogs : List Moment → List Log
  | [] => []
  | m :: later => (if survives later then m.emitted?.toList else []) ++ keptLogs later

/-- What comes after some moments keeps all the logs that they keep, or none of them. -/
def KeptTogether (moments : List Moment) : Prop :=
  ∀ later, keptLogs (moments ++ later) =
    (if survives later then keptLogs moments else []) ++ keptLogs later

/-- These are the logs picked from what is left of the moments. -/
theorem keptLogs_eq_kept (moments : List Moment) :
    keptLogs moments = kept Moment.emitted? moments := by
  induction moments with
  | nil => rfl
  | cons m later ih =>
      rw [keptLogs, ih, kept, kept, live]
      split
      · cases hm : m.emitted? <;> simp [hm]
      · rfl

theorem LivesTogether.keptTogether {moments : List Moment} (h : LivesTogether moments) :
    KeptTogether moments := by
  intro later
  rw [keptLogs_eq_kept, keptLogs_eq_kept, keptLogs_eq_kept, h.kept_append]

theorem keptLogs_silent {m : Moment} (h : m.emitted? = none) (later : List Moment) :
    keptLogs (m :: later) = keptLogs later := by
  rw [keptLogs_eq_kept, keptLogs_eq_kept, kept_cons_of_eq_none h]

theorem ofRequests_emitted? : OfRequests Moment.emitted? := by
  intro m hm
  unfold Moment.emitted?
  split
  · next hact => exact absurd hact (hm _ _)
  · rfl

namespace Executor

variable {setting : Setting} {frames : List Frame} {s t u : Executor} {moments : List Moment}

/-! ### Which logs are kept -/

/-- The logs of a frame are kept where the frame is left with a success. -/
theorem keptLogs_frame (point : Checkpoint) (exit : Exit) (output : Bytes) (nrgLeft : Nrg)
    (opening : Executor) (h : LivesTogether moments) :
    keptLogs (⟨frames, opening, .opened⟩ ::
        (moments ++ leaveChronicle setting frames point exit output nrgLeft u)) =
      if (u.leave setting point exit output nrgLeft).1.isSuccess then keptLogs moments else [] := by
  rw [keptLogs_eq_kept, keptLogs_eq_kept, kept_frame _ _ _ _ ofRequests_emitted? _ h]

/-- **What comes after a course keeps all the logs that it keeps, or none of them.** -/
theorem Course.keptTogether (h : Course setting frames s moments t) : KeptTogether moments :=
  h.livesTogether.keptTogether

/-! ### The logs of a course -/

theorem logs_leave (hreliable : Reliable setting) (h : Extends s.checkpoint.2 u) (exit : Exit)
    (output : Bytes) (nrgLeft : Nrg) :
    (u.leave setting s.checkpoint.1 exit output nrgLeft).2.tx.logs =
      if (u.leave setting s.checkpoint.1 exit output nrgLeft).1.isSuccess then u.tx.logs
      else s.tx.logs := by
  rcases leave_cases hreliable h exit output nrgLeft with
    ⟨hsuccess, -, htx⟩ | ⟨hfailed, hunchanged⟩
  · rw [hsuccess, htx]
    rfl
  · rw [hfailed, hunchanged.logs]
    rfl

theorem logs_answer (room : Option FrameRunner) {r : Request} (h : r.isNested = false) :
    (answer setting room r s).2.tx.logs =
      s.tx.logs ++ keptLogs [⟨frames, s, .asked r (answer setting room r s).1⟩] := by
  cases r with
  | log entry =>
      cases hstatic : s.isStatic with
      | true => simp [answer, hstatic, keptLogs, Moment.emitted?, survives, enclosing]
      | false => simp [answer, hstatic, keptLogs, Moment.emitted?, survives, enclosing]
  | setStorage a key value =>
      dsimp only [answer]
      split <;> exact (List.append_nil _).symm
  | call => cases h
  | create => cases h
  | _ => exact (List.append_nil _).symm

theorem emitted?_nested {r : Request} (h : r.isNested = true) (answer : r.Answer) :
    (⟨frames, s, .asked r answer⟩ : Moment).emitted? = none := by
  cases r with
  | log => cases h
  | _ => rfl

/-- The logs after a frame that is guarded by a checkpoint. -/
theorem logs_frame (hreliable : Reliable setting) (h : Extends s.checkpoint.2 u)
    (hlogs : u.tx.logs = s.tx.logs ++ keptLogs moments) (hmoments : LivesTogether moments)
    (opening : Executor) (exit : Exit) (output : Bytes) (nrgLeft : Nrg) :
    (u.leave setting s.checkpoint.1 exit output nrgLeft).2.tx.logs =
      s.tx.logs ++ keptLogs (⟨frames, opening, .opened⟩ ::
        (moments ++ leaveChronicle setting frames s.checkpoint.1 exit output nrgLeft u)) := by
  rw [logs_leave hreliable h, keptLogs_frame _ _ _ _ _ hmoments, hlogs]
  split
  · rfl
  · exact (List.append_nil _).symm

theorem keptLogs_append (h : KeptTogether moments) {later : List Moment}
    (hlater : survives later = true) :
    keptLogs (moments ++ later) = keptLogs moments ++ keptLogs later := by
  rw [h, hlater]
  rfl

/-- **The logs after a course** are those before it, and then those that it keeps. -/
theorem Course.logs_eq (hreliable : Reliable setting) (h : Course setting frames s moments t) :
    t.tx.logs = s.tx.logs ++ keptLogs moments := by
  have hnone : ∀ logs : List Log, logs = logs ++ keptLogs [] := fun logs =>
    (List.append_nil logs).symm
  induction h with
  | andThen first second ih ih' =>
      rw [ih', ih, keptLogs_append first.keptTogether (survives_course second), List.append_assoc]
  | answered frames s room h => exact logs_answer room h
  | asked frames s room h =>
      rw [keptLogs_silent (emitted?_nested h _)]
      exact hnone _
  | transfer h hpaid =>
      rw [(transfer_fields hpaid).1]
      exact hnone _
  | nonce h hclaimed =>
      rw [(incNonce_fields hclaimed).1]
      exact hnone _
  | entered hfatal hcode hstatic hdepth body ih =>
      rw [keptLogs_silent rfl]
      exact ih
  | @guarded frames s opening t u moments exit hfatal hopened body ends output nrgLeft ih =>
      have hextends := hopened.extends_ends hreliable body ends
      refine logs_frame hreliable hextends ?_ body.livesTogether _ _ _ _
      rw [ends.spared.logs, ih, hopened.spared.logs]
  | @created frames s opening paid t moments _ address exit hfatal hopened hfree hstatic hpaid body
      hmode hnone hsuccess code nrgLeft ih =>
      have hextends := hopened.extends_stored hreliable hstatic hpaid body hmode hnone address code
      have hkept := body.livesTogether.append
        (livesTogether_singleton ⟨frames, t, .deposited address code⟩) fun later => rfl
      refine logs_frame hreliable hextends ?_ hkept opening exit code nrgLeft
      rw [keptLogs_append body.keptTogether rfl]
      show t.tx.logs = _
      rw [ih, (spared_transfer hpaid).logs, hopened.spared.logs]
      exact (congrArg _ (List.append_nil _)).symm
  | @givenUp frames s entry h =>
      have hsettles := settlesAs_givenUp hreliable s entry
      exact (hsettles.restored rfl).logs.trans (hnone _)
  | _ => exact hnone _

/-! ### The steps of a course -/

theorem stepLogs_leave (setting : Setting) (s : Executor) (point : Checkpoint) (exit : Exit)
    (output : Bytes) (nrgLeft : Nrg) :
    (s.leave setting point exit output nrgLeft).2.tx.stepLogs = s.tx.stepLogs := by
  rw [tx_leave]
  split <;> rfl

theorem stepLogs_settleOrLatch (setting : Setting) (s : Executor) (point : Checkpoint)
    (closing : Overlay.Closing) :
    (s.settleOrLatch setting point closing).tx.stepLogs = s.tx.stepLogs := by
  rw [tx_settleOrLatch]
  cases closing <;> rfl

theorem stepLogs_answer (room : Option FrameRunner) {r : Request} (h : r.isNested = false) :
    (answer setting room r s).2.tx.stepLogs = s.tx.stepLogs ++
      [(⟨frames, s, .asked r (answer setting room r s).1⟩ : Moment)].filterMap
        Moment.recorded? := by
  cases r with
  | log entry =>
      dsimp only [answer]
      split <;> exact (List.append_nil _).symm
  | setStorage a key value =>
      dsimp only [answer]
      split <;> exact (List.append_nil _).symm
  | stepLog entry => rfl
  | call => cases h
  | create => cases h
  | _ => exact (List.append_nil _).symm

theorem recorded?_nested {r : Request} (h : r.isNested = true) (answer : r.Answer) :
    (⟨frames, s, .asked r answer⟩ : Moment).recorded? = none := by
  cases r with
  | stepLog => cases h
  | _ => rfl

/-- The steps after a frame, however it is left. -/
theorem stepLogs_frame (opening : Executor) (point : Checkpoint) (exit : Exit) (output : Bytes)
    (nrgLeft : Nrg) (h : u.tx.stepLogs = s.tx.stepLogs ++ moments.filterMap Moment.recorded?) :
    (u.leave setting point exit output nrgLeft).2.tx.stepLogs = s.tx.stepLogs ++
      (⟨frames, opening, .opened⟩ :: (moments ++
        leaveChronicle setting frames point exit output nrgLeft u)).filterMap
          Moment.recorded? := by
  have hleaving : (leaveChronicle setting frames point exit output nrgLeft u).filterMap
      Moment.recorded? = [] := by
    cases exit <;> rfl
  show _ = _ ++ (moments ++ _).filterMap Moment.recorded?
  rw [stepLogs_leave, h, List.filterMap_append, hleaving, List.append_nil]

/-- **The steps recorded in a course stay**, also those of frames that are undone. -/
theorem Course.stepLogs_eq (h : Course setting frames s moments t) :
    t.tx.stepLogs = s.tx.stepLogs ++ moments.filterMap Moment.recorded? := by
  have hnone : ∀ stepLogs : List StepLog, stepLogs = stepLogs ++ ([] : List Moment).filterMap
      Moment.recorded? := fun stepLogs => (List.append_nil stepLogs).symm
  induction h with
  | andThen first second ih ih' => rw [ih', ih, List.filterMap_append, List.append_assoc]
  | answered frames s room h => exact stepLogs_answer room h
  | asked frames s room h =>
      rw [List.filterMap_cons_none (recorded?_nested h _)]
      exact hnone _
  | transfer h hpaid =>
      rw [(transfer_fields hpaid).1]
      exact hnone _
  | nonce h hclaimed =>
      rw [(incNonce_fields hclaimed).1]
      exact hnone _
  | entered hfatal hcode hstatic hdepth body ih => exact ih
  | guarded hfatal hopened body ends output nrgLeft ih =>
      refine stepLogs_frame _ _ _ output nrgLeft ?_
      rw [ends.tx_eq, ih, hopened.tx_eq]
  | created hfatal hopened hfree hstatic hpaid body hmode hnone hsuccess code nrgLeft ih =>
      refine stepLogs_frame _ _ _ code nrgLeft ?_
      rw [List.filterMap_append, ← hopened.tx_eq, ← (transfer_fields hpaid).1]
      exact ih.trans (congrArg _ (List.append_nil _).symm)
  | givenUp h =>
      rw [stepLogs_settleOrLatch]
      exact hnone _
  | _ => exact hnone _

/-! ### Operations -/

/-- What an operation adds to the logs and to the recorded steps. -/
structure Logged (op : Operation) (s : Executor) (moments : List Moment) (t : Executor) :
    Prop where
  /-- The logs are those before the operation, and then those that are kept of it. -/
  logs : op.isDryRun = false → t.tx.logs = s.tx.logs ++ keptLogs moments
  /-- A dry run adds none. -/
  dryRun : op.isDryRun = true → t.tx.logs = s.tx.logs
  /-- A transaction with a fatal condition adds none. -/
  aborted : op.isTransaction = true → t.fatal.isSome = true → t.tx.logs = s.tx.logs
  /-- All steps recorded in the operation stay. -/
  stepLogs : t.tx.stepLogs = s.tx.stepLogs ++ moments.filterMap Moment.recorded?

theorem TransactedAs.logs_eq (hreliable : Reliable setting)
    (h : TransactedAs setting s moments t) :
    t.tx.logs = s.tx.logs ++ keptLogs moments ∧
      (t.fatal.isSome = true → t.tx.logs = s.tx.logs) ∧
      t.tx.stepLogs = s.tx.stepLogs ++ moments.filterMap Moment.recorded? := by
  obtain ⟨r, hremark, body, aborted⟩ := h
  rename_i moments t
  have hbody := body.logs_eq hreliable
  have hlogs : t.tx.logs = s.tx.logs ++ keptLogs moments := hbody
  have hextends := body.activity.toExtends hreliable
  have hsettles := settleOrLatch_checkpoint hreliable hextends t.concluding
  have hkept : keptLogs (moments ++
      [settlingOf setting (s.prepared r).checkpoint.1 t.concluding t]) = keptLogs moments := by
    rw [keptLogs_append body.keptTogether rfl]
    exact List.append_nil _
  have hundone : t.fatal.isSome = true →
      (conclude setting (s.prepared r).checkpoint.1 t).tx.logs = s.tx.logs := by
    intro hfatal
    exact (hsettles.restored (by rw [concluding, if_pos hfatal])).logs
  refine ⟨?_, fun hfatal => hundone ?_, ?_⟩
  · rw [hkept]
    cases hfatal : t.fatal.isSome with
    | true =>
        -- The call or creation has failed, so nothing of it was kept even before.
        have hspared : t.tx.logs = s.tx.logs := (aborted hfatal).logs
        rw [hspared, List.self_eq_append_right] at hlogs
        rw [hundone hfatal, hlogs, List.append_nil]
    | false =>
        rw [← hlogs]
        show (t.settleOrLatch setting _ (if t.fatal.isSome then .restore else .commit)).tx.logs = _
        rw [hfatal, tx_settleOrLatch]
        rfl
  · rw [← hsettles.fatal]
    exact hfatal
  · show (t.settleOrLatch setting _ _).tx.stepLogs = _
    rw [stepLogs_settleOrLatch, body.stepLogs_eq, List.filterMap_append]
    exact congrArg _ (List.append_nil _).symm

theorem OperatedAs.logged (hreliable : Reliable setting) {op : Operation}
    (h : OperatedAs setting s op moments t) : Logged op s moments t := by
  cases h with
  | course hkind hkept h =>
      refine ⟨fun _ => h.logs_eq hreliable, fun hdry => ?_, fun htransaction => ?_, h.stepLogs_eq⟩
      · rw [hkept] at hdry
        cases hdry
      · rw [hkind] at htransaction
        cases htransaction
  | transaction hkept h =>
      obtain ⟨hlogs, haborted, hsteps⟩ := h.logs_eq hreliable
      refine ⟨fun _ => hlogs, fun hdry => ?_, fun _ => haborted, hsteps⟩
      rw [hkept] at hdry
      cases hdry
  | @dryRun moments t hundone h r =>
      obtain ⟨r', hsettles⟩ := h.transacted.settlesAs_restore hreliable
      have hlogs : (t.settleOrLatch setting s.checkpoint.1 .restore).tx.logs = s.tx.logs :=
        (hsettles.restored rfl).logs
      refine ⟨fun hkept => ?_, fun _ => hlogs, fun _ _ => hlogs, ?_⟩
      · rw [hundone] at hkept
        cases hkept
      · obtain ⟨-, -, hsteps⟩ := h.logs_eq hreliable
        show (t.settleOrLatch setting _ _).tx.stepLogs = _
        rw [stepLogs_settleOrLatch, hsteps, List.filterMap_append]
        exact congrArg _ (List.append_nil _).symm

/-- **An operation adds the logs of the frames that were not undone**, in the order of emission, and
every step that it recorded. -/
theorem logged_operate (setting : Setting) (hreliable : Reliable setting) (s : Executor)
    (op : Operation) :
    Logged op s (operationChronicle setting s op) (operate setting s op) :=
  (operatedAs setting hreliable s op).logged hreliable

/-- A contract logs, calls another one three times, and logs again; the other one records a step and
logs, but reverts the first time and is static the last time. This is called, called with a fatal
condition in the end, and simulated. -/
theorem logged_reverting_frames :
    let interpreter : Interpreter := fun code frame =>
      if code = [1] then do
        let _ ← Program.request (.log ⟨5, [1], []⟩)
        let _ ← Program.request (.call .call frame.identity 6 [7] frame.nrg 3)
        let _ ← Program.request (.call .call frame.identity 6 [] frame.nrg 3)
        let _ ← Program.request (.call .staticCall frame.identity 6 [] frame.nrg 0)
        let _ ← Program.request (.log ⟨5, [2], []⟩)
        if frame.input = [7] then pure (.aborted .balanceOverflow) else pure (.returned [] 5)
      else do
        let _ ← Program.request (.stepLog ⟨0, 0, 9, 1, 2, [], [], ∅, none⟩)
        let _ ← Program.request (.log ⟨6, [], frame.input⟩)
        if frame.input = [7] then pure (.reverted [] 1) else pure (.stopped 1)
    let setting := homesteadWith interpreter
    let s := withTwoContracts 0
    let calling : Operation := .transactCall 1 5 20 [] ⟨90, 1⟩
    let aborting : Operation := .transactCall 1 5 20 [7] ⟨90, 1⟩
    let simulating : Operation := .simulateCall 1 5 20 [] ⟨90, 1⟩
    Reliable setting ∧
      (operate setting s calling).tx.logs =
        [⟨3, [], []⟩, ⟨5, [1], []⟩, ⟨6, [], []⟩, ⟨5, [2], []⟩] ∧
      Logged calling s (operationChronicle setting s calling) (operate setting s calling) ∧
      (operate setting s aborting).fatal = some .balanceOverflow ∧
      (operate setting s aborting).tx.logs = [⟨3, [], []⟩] ∧
      (operate setting s aborting).tx.stepLogs.length = 3 ∧
      Logged aborting s (operationChronicle setting s aborting) (operate setting s aborting) ∧
      (operate setting s simulating).tx.logs = [⟨3, [], []⟩] ∧
      Logged simulating s (operationChronicle setting s simulating)
        (operate setting s simulating) := by
  intro interpreter setting s calling aborting simulating
  have hreliable : Reliable setting := fun _ _ => rfl
  refine ⟨hreliable, by decide +kernel, ?_, by decide +kernel, by decide +kernel,
    by decide +kernel, ?_, by decide +kernel, ?_⟩
  · exact logged_operate setting hreliable s calling
  · exact logged_operate setting hreliable s aborting
  · exact logged_operate setting hreliable s simulating

end Executor

end MessageCalls

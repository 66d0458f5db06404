import MessageCalls.Proofs.Executor.Runs
import MessageCalls.Proofs.Overlay.Closing
import MessageCalls.Proofs.Overlay.Writes
/-!
# MessageCalls.Proofs.Executor.Rollback

**A frame that fails leaves no trace in the state** (`Executor.footprint_of_failure`): the pending
writes, the logs, the open snapshots, the depth and the mode are those found before, whatever the
frame and the frames nested in it did. The one exception is the nonce of a creator, where its
increment survives a failed creation.

Two relations carry the proof. While a frame runs, the layers beneath the innermost one and the
logs emitted before stay as they are (`Executor.Extends`), which every activity respects; so the
snapshot of the checkpoint is the innermost one again when the frame is left, and settling against
it gives back the state before (`Executor.Unchanged`).
-/

namespace MessageCalls

/-- What a frame can leave behind in the state. -/
structure Footprint where
  /-- All pending writes. -/
  changes : ChangeSet
  /-- The logs. -/
  logs : List Log
  /-- The number of open snapshots. -/
  openSnapshots : Nat
  /-- The number of frames that are running. -/
  depth : Nat
  /-- The state may not be modified. -/
  isStatic : Bool

/-- The fatal condition that an exit stands for. -/
def Exit.abort? : Exit → Option Abort
  | .aborted cause => some cause
  | _ => none

namespace Executor

/-- What has been left behind so far. -/
def footprint (s : Executor) : Footprint where
  changes := s.accounts.changes
  logs := s.tx.logs
  openSnapshots := s.accounts.openSnapshots
  depth := s.tx.depth
  isStatic := s.isStatic

/-- From `s` to `t` only the innermost layer was written to, and logs were only added. -/
structure Extends (s t : Executor) : Prop where
  stored : t.accounts.stored = s.accounts.stored
  layers : t.accounts.layers = s.accounts.layers
  logs : s.tx.logs <+: t.tx.logs
  depth : t.tx.depth = s.tx.depth
  isStatic : t.isStatic = s.isStatic

/-- From `s` to `t` nothing was written and no log was added. -/
structure Unchanged (s t : Executor) : Prop where
  stored : t.accounts.stored = s.accounts.stored
  current : t.accounts.current = s.accounts.current
  layers : t.accounts.layers = s.accounts.layers
  logs : t.tx.logs = s.tx.logs
  depth : t.tx.depth = s.tx.depth
  isStatic : t.isStatic = s.isStatic

variable {setting : Setting} {frames : List Frame} {s t u : Executor} {moments : List Moment}

/-- Moving value does to the accounts what it does to pending accounts, whether it fails or not. -/
theorem accounts_transfer {transfer : Transfer} {result : Except Failure Unit}
    (h : s.transfer transfer = (result, t)) : t.accounts = (s.accounts.transfer transfer).2 := by
  unfold Executor.transfer at h
  split at h
  · next hmoved =>
      cases h
      exact (congrArg Prod.snd hmoved).symm
  · next hmoved =>
      cases h
      exact (congrArg Prod.snd hmoved).symm

namespace Extends

theorem refl (s : Executor) : Extends s s := ⟨rfl, rfl, List.prefix_refl _, rfl, rfl⟩

theorem trans (h : Extends s t) (h' : Extends t u) : Extends s u :=
  ⟨h'.stored.trans h.stored, h'.layers.trans h.layers, h.logs.trans h'.logs,
    h'.depth.trans h.depth, h'.isStatic.trans h.isStatic⟩

theorem transfer {transfer : Transfer} {result : Except Failure Unit}
    (h : s.transfer transfer = (result, t)) : Extends s t := by
  obtain ⟨htx, hmode, -⟩ := transfer_fields h
  have haccounts := accounts_transfer h
  obtain ⟨hstored, hlayers⟩ := Overlay.beneath_transfer s.accounts transfer
  exact ⟨by rw [haccounts, hstored], by rw [haccounts, hlayers], htx ▸ List.prefix_refl _,
    by rw [htx], hmode⟩

theorem incNonce {a : Address} (h : s.incNonce a = .ok t) : Extends s t := by
  unfold Executor.incNonce at h
  split at h
  · next haccounts =>
      cases h
      obtain ⟨-, rfl⟩ := Overlay.incNonce_eq_ok_iff.mp haccounts
      exact ⟨rfl, rfl, List.prefix_refl _, rfl, rfl⟩
  · cases h

end Extends

namespace Unchanged

theorem refl (s : Executor) : Unchanged s s := ⟨rfl, rfl, rfl, rfl, rfl, rfl⟩

theorem trans (h : Unchanged s t) (h' : Unchanged t u) : Unchanged s u :=
  ⟨h'.stored.trans h.stored, h'.current.trans h.current, h'.layers.trans h.layers,
    h'.logs.trans h.logs, h'.depth.trans h.depth, h'.isStatic.trans h.isStatic⟩

theorem toExtends (h : Unchanged s t) : Extends s t :=
  ⟨h.stored, h.layers, h.logs ▸ List.prefix_refl _, h.depth, h.isStatic⟩

theorem note (s : Executor) (entry : Entry) : Unchanged s (s.note entry) :=
  ⟨rfl, rfl, rfl, rfl, rfl, rfl⟩

theorem latch (s : Executor) (cause : Abort) : Unchanged s (s.latch cause) := by
  constructor <;> simp

theorem footprint_eq (h : Unchanged s t) : t.footprint = s.footprint := by
  have hchanges : t.accounts.changes = s.accounts.changes := by
    rw [Overlay.changes, Overlay.changes, h.layers, h.current]
  have hopen : t.accounts.openSnapshots = s.accounts.openSnapshots := by
    rw [Overlay.openSnapshots, Overlay.openSnapshots, h.layers]
  rw [footprint, footprint, hchanges, h.logs, hopen, h.depth, h.isStatic]

end Unchanged

theorem Noted.accounts_eq (h : Noted s t) : t.accounts = s.accounts := by
  induction h with
  | refl => rfl
  | note _ _ _ ih => exact ih

theorem Noted.unchanged (h : Noted s t) : Unchanged s t := by
  induction h with
  | refl => exact .refl s
  | note _ entry _ ih => exact ih.trans (.note _ entry)

/-! ### Settling -/

/-- The accounts refuse no closing of an open snapshot. -/
def Reliable (setting : Setting) : Prop := ∀ closing id, setting.refuses closing id = false

/-- What it means to settle in `t`, and end in `u`, a checkpoint that was taken in `s`. -/
structure SettlesAs (s t : Executor) (closing : Overlay.Closing) (u : Executor) : Prop where
  fatal : u.fatal = t.fatal
  extended : Extends s u
  /-- A restore undoes whatever was done. -/
  restored : closing = .restore → Unchanged s u
  /-- Where nothing was done there is nothing to keep or to undo. -/
  idle : Unchanged s.checkpoint.2 t → Unchanged s u

/-- **Settling a checkpoint that is the innermost one** never fails. -/
theorem settle_checkpoint (hreliable : Reliable setting) (h : Extends s.checkpoint.2 t)
    (closing : Overlay.Closing) :
    ∃ u, t.settle setting s.checkpoint.1 closing = (.ok (), u) ∧ SettlesAs s t closing u := by
  have hlayers : t.accounts.layers = ⟨s.accounts.nextId, s.accounts.current⟩ :: s.accounts.layers :=
    h.layers
  -- The layers beneath never changed, so the handle still names the innermost one.
  have hclose : t.accounts.close s.checkpoint.1.handle closing =
      .ok (t.accounts.closeInnermost closing) := by
    rw [Overlay.close_innermost hlayers rfl]
    exact if_pos rfl
  have hlogs : s.tx.logs <+: t.tx.logs := h.logs
  cases closing with
  | commit =>
      simp only [settle, close, hreliable .commit, accounts_record, hclose]
      rw [Overlay.closeInnermost_cons hlayers]
      refine ⟨_, rfl, rfl, ⟨h.stored, rfl, hlogs, h.depth, h.isStatic⟩, fun hrestore => ?_,
        fun hidle => ⟨h.stored, ?_, rfl, hidle.logs, h.depth, h.isStatic⟩⟩
      · cases hrestore
      · show s.accounts.current.merge t.accounts.current = s.accounts.current
        rw [hidle.current]
        exact ChangeSet.merge_empty _
  | restore =>
      simp only [settle, close, hreliable .restore, accounts_record, hclose]
      have hunchanged : Unchanged s
          { ({ t with tx := t.tx.truncateLogs s.checkpoint.1.logs } : Executor).record
              (.closing .restore s.checkpoint.1.handle.id) with
            accounts := t.accounts.closeInnermost .restore } := by
        rw [Overlay.closeInnermost_cons hlayers]
        exact ⟨h.stored, rfl, rfl, (List.prefix_iff_eq_take.mp hlogs).symm, h.depth, h.isStatic⟩
      exact ⟨_, rfl, rfl, hunchanged.toExtends, fun _ => hunchanged, fun _ => hunchanged⟩

/-- The same where a refusal would be latched: there is none. -/
theorem settleOrLatch_checkpoint (hreliable : Reliable setting) (h : Extends s.checkpoint.2 t)
    (closing : Overlay.Closing) :
    SettlesAs s t closing (t.settleOrLatch setting s.checkpoint.1 closing) := by
  obtain ⟨u, hsettled, hsettles⟩ := settle_checkpoint hreliable h closing
  rw [settleOrLatch, hsettled]
  exact hsettles

/-- A checkpoint is given up at once. -/
theorem settlesAs_givenUp (hreliable : Reliable setting) (s : Executor) (entry : Entry) :
    SettlesAs s (s.checkpoint.2.note entry) .restore
      ((s.checkpoint.2.note entry).settleOrLatch setting s.checkpoint.1 .restore) :=
  settleOrLatch_checkpoint hreliable (Unchanged.note s.checkpoint.2 entry).toExtends .restore

/-! ### Leaving a frame -/

/-- The exit that counts is announced, and its fatal condition latched. -/
def announce (s : Executor) (exit : Exit) (output : Bytes) : Executor :=
  let s := s.note (.event (.exit exit output))
  match exit with
  | .aborted cause => s.latch cause
  | _ => s

theorem unchanged_announce (s : Executor) (exit : Exit) (output : Bytes) :
    Unchanged s (s.announce exit output) := by
  unfold announce
  split
  · exact (Unchanged.note s _).trans (.latch _ _)
  · exact .note s _

theorem abort?_finalExit (s : Executor) (exit : Exit) :
    (s.finalExit exit).abort? = s.fatal.or exit.abort? := by
  unfold finalExit
  cases s.fatal <;> rfl

/-- The condition latched before comes first, also when the frame has met one of its own. -/
theorem fatal_announce (s : Executor) (exit : Exit) (output : Bytes) :
    (s.announce (s.finalExit exit) output).fatal = (s.finalExit exit).abort? := by
  unfold finalExit announce
  cases hfatal : s.fatal with
  | some cause => simp [hfatal, Exit.abort?]
  | none => cases exit <;> simp [hfatal, Exit.abort?]

/-- A frame is announced and then settled. -/
theorem leave_eq (setting : Setting) (s : Executor) (point : Checkpoint) (exit : Exit)
    (output : Bytes) (nrgLeft : Nrg) :
    s.leave setting point exit output nrgLeft =
      match (s.announce (s.finalExit exit) output).settle setting point
        (if (s.finalExit exit).isSuccess then .commit else .restore) with
      | (.ok (), t) => ((s.finalExit exit).outcome output nrgLeft, t)
      | (.error cause, t) => (.failed (.aborted cause) 0, t.latch cause) := rfl

/-- How a frame is left in `u` that was entered in `s`: with which outcome, and in which state. -/
structure LeavesAs (s u : Executor) (exit : Exit) (output : Bytes) (nrgLeft : Nrg)
    (outcome : CallOutcome) (t : Executor) : Prop where
  outcome_eq : outcome = (u.finalExit exit).outcome output nrgLeft
  fatal : t.fatal = (u.finalExit exit).abort?
  extended : Extends s t
  unchanged : outcome.isSuccess = false → Unchanged s t
  idle : Unchanged s.checkpoint.2 u → Unchanged s t

/-- **Leaving a frame**, whatever was done since its checkpoint was taken. -/
theorem leavesAs_leave (hreliable : Reliable setting) (h : Extends s.checkpoint.2 u) (exit : Exit)
    (output : Bytes) (nrgLeft : Nrg) :
    LeavesAs s u exit output nrgLeft (u.leave setting s.checkpoint.1 exit output nrgLeft).1
      (u.leave setting s.checkpoint.1 exit output nrgLeft).2 := by
  have hannounced := unchanged_announce u (u.finalExit exit) output
  obtain ⟨t, hsettled, hsettles⟩ := settle_checkpoint hreliable (h.trans hannounced.toExtends)
    (if (u.finalExit exit).isSuccess then .commit else .restore)
  rw [leave_eq, hsettled]
  refine ⟨rfl, hsettles.fatal.trans (fatal_announce u exit output), hsettles.extended,
    fun hfailed => ?_, fun hidle => hsettles.idle (hidle.trans hannounced)⟩
  rw [Exit.isSuccess_outcome] at hfailed
  exact hsettles.restored (by rw [hfailed]; rfl)

/-! ### Activities -/

theorem Ends.toExtends {exit : Exit} (h : Ends t u exit) : Extends t u := by
  cases h with
  | reported => exact .refl t
  | unpaid h => exact .transfer h
  | collided address => exact ((Unchanged.note t _).trans (.latch _ _)).toExtends

/-- A frame is left once its work has come to an end. -/
theorem leavesAs_of_ends (hreliable : Reliable setting) (h : Extends s.checkpoint.2 t)
    {exit : Exit} (ends : Ends t u exit) (output : Bytes) (nrgLeft : Nrg) :
    LeavesAs s u exit output nrgLeft (u.leave setting s.checkpoint.1 exit output nrgLeft).1
      (u.leave setting s.checkpoint.1 exit output nrgLeft).2 :=
  leavesAs_leave hreliable (h.trans ends.toExtends) exit output nrgLeft

/-- **Whatever is done, the layers beneath and the logs emitted before stay.** -/
theorem Activity.toExtends (hreliable : Reliable setting)
    (h : Activity setting frames s moments t) : Extends s t := by
  induction h with
  | andThen first second ih ih' => exact ih.trans ih'
  | log h entry => exact ⟨rfl, rfl, List.prefix_append _ _, rfl, rfl⟩
  | transfer h hpaid => exact .transfer hpaid
  | nonce h hclaimed => exact .incNonce hclaimed
  | entered hfatal hcode hstatic hdepth body ih =>
      -- The depth and the mode may differ inside, and are put back.
      exact ⟨ih.stored, ih.layers, ih.logs, rfl, rfl⟩
  | guarded hfatal opening body ends output nrgLeft ih =>
      exact (leavesAs_of_ends hreliable ih ends output nrgLeft).extended
  | @givenUp frames s entry h => exact (settlesAs_givenUp hreliable s entry).extended
  | _ => exact ⟨rfl, rfl, List.prefix_refl _, rfl, rfl⟩

/-! ### The steps of a call or a creation -/

theorem extends_pay {transfer : Option Transfer} {result : Except Failure Unit}
    (h : s.pay transfer = (result, t)) : Extends s t := by
  obtain ⟨-, -, rfl⟩ | ⟨tr, -, htransfer⟩ := pay_cases h
  · exact .refl t
  · exact .transfer htransfer

theorem extends_deposit (setting : Setting) (address : Address) (result : FrameResult) :
    Extends s (deposit setting address result s).2 := by
  unfold deposit
  split
  · split
    · exact ⟨rfl, rfl, List.prefix_refl _, rfl, rfl⟩
    · exact .refl s
  · exact .refl s

section Runner

variable {runner : FrameRunner} {recorder : FrameRecorder} (hreliable : Reliable setting)
  (hruns : RunsAs setting runner recorder)

include hreliable hruns

theorem extends_enter (code : Bytes) (frame : Frame) : Extends s (enter runner code frame s).2 := by
  unfold enter
  split
  · exact .refl s
  · obtain ⟨moments, -, hbody⟩ := hruns [] code frame (s.inside frame)
    have hinner := hbody.activity.toExtends hreliable
    -- The depth and the mode may differ inside, and are put back.
    exact ⟨hinner.stored, hinner.layers, hinner.logs, rfl, rfl⟩

theorem extends_answerCall (c : Call) : Extends s (answerCall setting runner c s).2 := by
  unfold answerCall
  cases setting.natives.run c.codeAddress c.input c.nrg.limit c.identity with
  | some result =>
      dsimp only
      split
      · exact (Unchanged.note s _).toExtends
      · exact .refl s
  | none => exact extends_enter hreliable hruns _ _

end Runner

/-! ### Calls and creations that fail -/

/-- Every call or creation that is let in is left again. -/
theorem Guarded.leavesAs (hreliable : Reliable setting) {outcome : CallOutcome}
    (h : Guarded setting frames s moments outcome t) :
    ∃ u exit output nrgLeft, LeavesAs s u exit output nrgLeft outcome t := by
  cases h with
  | @intro t u moments exit hfatal opening body ends output nrgLeft course =>
      exact ⟨u, exit, output, nrgLeft,
        leavesAs_of_ends hreliable (body.toExtends hreliable) ends output nrgLeft⟩

theorem Called.unchanged (hreliable : Reliable setting) {outcome : CallOutcome}
    (h : Called setting frames s moments outcome t) (hfailed : outcome.isSuccess = false) :
    Unchanged s t := by
  cases h with
  | refused noted => exact noted.unchanged
  | letIn before frame after =>
      obtain ⟨u, exit, output, nrgLeft, hleaves⟩ := frame.leavesAs hreliable
      exact (before.unchanged.trans (hleaves.unchanged hfailed)).trans after.unchanged

/-- What a failed creation leaves behind: the nonce of its creator incremented where that survives
the failure, provided that an address was derived and the nonce was not the largest one. -/
def afterFailedCreation (setting : Setting) (s : Executor) (creator : Address)
    (address : Option Address) : Footprint :=
  if setting.config.noncePersistsOnFailure = true ∧ address.isSome = true ∧
      (s.accounts.nonce creator).toNat < 2 ^ 64 - 1 then
    { s.footprint with
      changes := s.accounts.changes.setNonce creator (s.accounts.nonce creator + 1) }
  else s.footprint

theorem footprint_of_incNonce {creator : Address} (h : s.incNonce creator = .ok t) :
    (s.accounts.nonce creator).toNat < 2 ^ 64 - 1 ∧
      t.footprint =
        { s.footprint with
          changes := s.accounts.changes.setNonce creator (s.accounts.nonce creator + 1) } := by
  unfold incNonce at h
  split at h
  · next haccounts =>
      cases h
      obtain ⟨hsmall, rfl⟩ := Overlay.incNonce_eq_ok_iff.mp haccounts
      refine ⟨hsmall, ?_⟩
      rw [footprint, footprint, Overlay.changes_setNonce]
      rfl
  · cases h

theorem nonce_of_incNonce_eq_error {creator : Address} {halt : Halt}
    (h : s.incNonce creator = .error halt) : ¬ (s.accounts.nonce creator).toNat < 2 ^ 64 - 1 := by
  intro hsmall
  have haccounts := Overlay.incNonce_eq_ok_iff.mpr ⟨hsmall, rfl⟩
  rw [incNonce, haccounts] at h
  cases h

theorem Created.footprint_eq (hreliable : Reliable setting) {creator : Address}
    {outcome : CreateOutcome} (h : Created setting frames creator s moments outcome t)
    (hfailed : outcome.isSuccess = false) :
    t.footprint = afterFailedCreation setting s creator outcome.address := by
  unfold afterFailedCreation
  cases h with
  | refused noted =>
      rw [if_neg (fun h => by cases h.2.1)]
      exact noted.unchanged.footprint_eq
  | unclaimed before hpersists hclaimed after =>
      -- An address was derived, but no nonce could be claimed: it was the largest one.
      have hlargest := nonce_of_incNonce_eq_error hclaimed
      rw [before.accounts_eq] at hlargest
      rw [if_neg (fun h => hlargest h.2.2)]
      exact (before.unchanged.trans after.unchanged).footprint_eq
  | @givenUp s₁ before hpersists entry hentry =>
      rw [if_neg (fun h => by rw [hpersists] at h; cases h.1)]
      have hsettles := settlesAs_givenUp hreliable s₁ entry
      exact (before.unchanged.trans (hsettles.restored rfl)).footprint_eq
  | @letIn s₁ s₂ t moments outcome before hstatic claimed hfatal called address =>
      have hunchanged : Unchanged s₂ t := called.unchanged hreliable hfailed
      rw [hunchanged.footprint_eq]
      -- The checkpoint was taken in `s₂`, after the increment where that survives.
      by_cases hpersists : setting.config.noncePersistsOnFailure = true
      · rw [Claimed, if_pos hpersists] at claimed
        obtain ⟨hsmall, hfootprint⟩ := footprint_of_incNonce claimed
        rw [hfootprint, before.unchanged.footprint_eq, before.accounts_eq] at *
        rw [if_pos ⟨hpersists, rfl, hsmall⟩]
      · rw [Claimed, if_neg hpersists] at claimed
        rw [claimed, if_neg (fun h => hpersists h.1)]
        exact before.unchanged.footprint_eq

/-- **A frame that fails leaves no trace**, whatever it did and whatever was nested in it: a call
that fails leaves behind exactly what was there before, and a creation that fails what
`afterFailedCreation` says. -/
theorem footprint_of_failure (setting : Setting) (hreliable : Reliable setting) (room : Nat)
    (s : Executor) :
    (∀ kind caller target input nrg value outcome t,
      callWith setting (runner setting room) kind caller target input nrg value s = (outcome, t) →
      outcome.isSuccess = false → t.footprint = s.footprint) ∧
    ∀ caller scheme init nrg value outcome t,
      createWith setting (runner setting room) caller scheme init nrg value s = (outcome, t) →
      outcome.isSuccess = false →
      t.footprint = afterFailedCreation setting s caller.address outcome.address := by
  constructor
  · intro kind caller target input nrg value outcome t h hfailed
    have hcalled := called setting room [] s kind caller target input nrg value
    rw [h] at hcalled
    exact (hcalled.unchanged hreliable hfailed).footprint_eq
  · intro caller scheme init nrg value outcome t h hfailed
    have hcreated := created setting room [] s caller scheme init nrg value
    rw [h] at hcreated
    exact hcreated.footprint_eq hreliable hfailed

/-! ### A concrete run -/

/-- The Homestead rules with some interpreter, and no native contracts. -/
def homesteadWith (interpreter : Interpreter) : Setting where
  config := .homestead
  interpreter := interpreter
  natives := .none

/-- A machine at some depth over two stored contracts, the accounts 5 and 6, with a pending write
and a log. -/
def withTwoContracts (depth : Nat) : Executor where
  accounts :=
    let stored : AccountView :=
      ⟨fun _ => 100, fun _ => 0, fun a => if a = 5 then [1] else if a = 6 then [2] else [],
        fun _ => 0, fun _ _ => 0, fun _ => true⟩
    ({ stored } : Overlay).setBalance 1 50
  tx := { facts := {}, ancestor := fun _ => 0, depth, logs := [⟨3, [], []⟩] }

/-- A contract that writes, logs and pays another one, which writes too, and then reverts: once
called, and once as the init code of a creation that leaves the nonce of its creator behind. -/
theorem footprint_of_reverting_code :
    let interpreter : Interpreter := fun code frame =>
      if code = [1] then do
        let _ ← Program.request (.setStorage frame.identity.address 0 7)
        let _ ← Program.request (.log ⟨frame.identity.address, [1], []⟩)
        let _ ← Program.request (.call .call frame.identity 6 [] frame.nrg 3)
        pure (.reverted [9] 5)
      else do
        let _ ← Program.request (.setStorage frame.identity.address 0 8)
        pure (.stopped 1)
    let setting := homesteadWith interpreter
    let s := withTwoContracts 2
    let called := callWith setting (runner setting 3) .call (.external 1) 5 [] ⟨90, 1⟩ 20 s
    let created := createWith setting (runner setting 3) (.external 1) (.fixed 9) [1] ⟨90, 1⟩ 20 s
    Reliable setting ∧ called.1 = .failed (.reverted [9]) 5 ∧
      called.2.footprint = s.footprint ∧ created.1 = .failed (some 9) (.reverted [9]) 5 ∧
      created.2.footprint =
        { s.footprint with changes := s.accounts.changes.setNonce 1 1 } := by
  intro interpreter setting s called created
  have hreliable : Reliable setting := fun _ _ => rfl
  have hcalled : called.1 = .failed (.reverted [9]) 5 := rfl
  have hcreated : created.1 = .failed (some 9) (.reverted [9]) 5 := rfl
  obtain ⟨hcalls, hcreations⟩ := footprint_of_failure setting hreliable 3 s
  refine ⟨hreliable, hcalled, ?_, hcreated, ?_⟩
  · exact hcalls .call (.external 1) 5 [] ⟨90, 1⟩ 20 called.1 called.2 (Prod.eta _).symm
      (by rw [hcalled]; rfl)
  · have hleft := hcreations (.external 1) (.fixed 9) [1] ⟨90, 1⟩ 20 created.1 created.2
      (Prod.eta _).symm (by rw [hcreated]; rfl)
    rw [hcreated] at hleft
    exact hleft

end Executor

end MessageCalls

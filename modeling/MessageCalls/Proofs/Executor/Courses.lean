import MessageCalls.Proofs.Executor.Discipline
import MessageCalls.Proofs.Executor.Readings
/-!
# MessageCalls.Proofs.Executor.Courses

What an operation does, told as a course: one by itself, one between the checkpoint of a
transaction and its settling, or such a transaction that is undone (`Executor.operatedAs`).

**A transaction with a fatal condition has come to nothing before it is undone**
(`Executor.Created.spared`): its call or creation has failed, and that leaves no log and no code.
-/

namespace MessageCalls

/-- The operation is undone in the end, whatever its outcome. -/
def Operation.isDryRun : Operation → Bool
  | .simulateCall .. | .estimateNrg .. => true
  | _ => false

namespace Executor

/-- From `s` to `t` no log was added and no code was stored. -/
structure Spared (s t : Executor) : Prop where
  logs : t.tx.logs = s.tx.logs
  code : t.accounts.code = s.accounts.code

variable {setting : Setting} {frames : List Frame} {s t u : Executor} {moments : List Moment}

theorem Spared.trans (h : Spared s t) (h' : Spared t u) : Spared s u :=
  ⟨h'.logs.trans h.logs, h'.code.trans h.code⟩

theorem Unchanged.spared (h : Unchanged s t) : Spared s t :=
  ⟨h.logs, congrArg AccountView.code h.view_eq⟩

theorem spared_checkpoint (s : Executor) : Spared s s.checkpoint.2 :=
  ⟨rfl, congrArg AccountView.code (view_checkpoint s)⟩

theorem spared_incNonce {a : Address} (h : s.incNonce a = .ok t) : Spared s t := by
  unfold incNonce at h
  split at h
  · next haccounts =>
      cases h
      obtain ⟨-, rfl⟩ := Overlay.incNonce_eq_ok_iff.mp haccounts
      exact ⟨rfl, rfl⟩
  · cases h

theorem spared_transfer {transfer : Transfer} {result : Except Failure Unit}
    (h : s.transfer transfer = (result, t)) : Spared s t := by
  obtain ⟨htx, -, -⟩ := transfer_fields h
  refine ⟨congrArg TxContext.logs htx, ?_⟩
  rw [accounts_transfer h, Overlay.code_transfer]

theorem Opens.tx_eq (h : Opens s t) : t.tx = s.tx := by
  cases h with
  | guarded => rfl
  | claimed hstatic h => exact (incNonce_fields h).1

theorem Opens.spared (h : Opens s t) : Spared s t := by
  cases h with
  | guarded => exact spared_checkpoint s
  | claimed hstatic h => exact (spared_checkpoint s).trans (spared_incNonce h)

theorem Ends.tx_eq {exit : Exit} (h : Ends t u exit) : u.tx = t.tx := by
  cases h with
  | reported => rfl
  | unpaid h => exact (transfer_fields h).1
  | collided address => exact tx_latch _ _

theorem Ends.spared {exit : Exit} (h : Ends t u exit) : Spared t u := by
  cases h with
  | reported => exact ⟨rfl, rfl⟩
  | unpaid h => exact spared_transfer h
  | collided address => exact ((Unchanged.note t _).trans (.latch _ _)).spared

/-- From its checkpoint to its end a frame only writes. -/
theorem Opens.extends_ends (hreliable : Reliable setting) {opening : Executor}
    (h : Opens s opening) (body : Course setting frames opening moments t) {exit : Exit}
    (ends : Ends t u exit) : Extends s.checkpoint.2 u := by
  have hbody : Activity setting frames s.checkpoint.2 moments t := h.activity.after body.activity
  exact (hbody.toExtends hreliable).trans ends.toExtends

/-- So does a creation until its code is stored. -/
theorem Opens.extends_stored (hreliable : Reliable setting) {opening paid : Executor}
    {transfer : Transfer} (h : Opens s opening) (hstatic : opening.isStatic = false)
    (hpaid : opening.transfer transfer = (.ok (), paid))
    (body : Course setting frames paid moments t) (hmode : t.isStatic = false)
    (hnone : t.fatal = none) (address : Address) (code : Bytes) :
    Extends s.checkpoint.2 (t.updateAccounts fun o => o.setCode address code) :=
  (h.activity_stored hstatic hpaid body.activity hmode hnone address code).toExtends hreliable

/-! ### What a failure leaves of logs and codes -/

theorem Called.spared (hreliable : Reliable setting) {outcome : CallOutcome}
    (h : Called setting frames s moments outcome t) (hfailed : outcome.isSuccess = false) :
    Spared s t := (h.unchanged hreliable hfailed).spared

theorem Created.spared (hreliable : Reliable setting) {creator : Address} {outcome : CreateOutcome}
    (h : Created setting frames creator s moments outcome t) (hfailed : outcome.isSuccess = false) :
    Spared s t := by
  cases h with
  | refused noted => exact noted.unchanged.spared
  | unclaimed before hpersists hclaimed after =>
      exact (before.unchanged.trans after.unchanged).spared
  | @givenUp s₁ before hpersists entry hentry =>
      have hsettles := settlesAs_givenUp hreliable s₁ entry
      exact (before.unchanged.trans (hsettles.restored rfl)).spared
  | @letIn s₁ s₂ t moments outcome before hstatic claimed hfatal called address =>
      have hcalled : Spared s₂ t := called.spared hreliable hfailed
      unfold Claimed at claimed
      split at claimed
      · exact (before.unchanged.spared.trans (spared_incNonce claimed)).trans hcalled
      · subst claimed
        exact before.unchanged.spared.trans hcalled

/-- An outcome that tells a fatal condition is a failure. -/
theorem Tells.failed {outcome : CallOutcome} (h : Tells outcome t)
    (hfatal : t.fatal.isSome = true) : outcome.isSuccess = false := by
  rw [h.fatal_eq] at hfatal
  unfold CallOutcome.abort? at hfatal
  unfold CallOutcome.isSuccess
  split at hfatal
  · next hresult => rw [hresult]
  · cases hfatal

/-! ### Operations -/

/-- A transaction: a course between a checkpoint and the settling of it. -/
inductive TransactedAs (setting : Setting) (s : Executor) : List Moment → Executor → Prop
  | intro {moments : List Moment} {t : Executor} (r : Record)
      (hremark : (Entry.record r).isRemark = true)
      (body : Course setting [] (s.prepared r).checkpoint.2 moments t)
      (aborted : t.fatal.isSome = true → Spared (s.prepared r).checkpoint.2 t) :
      TransactedAs setting s
        (moments ++ [settlingOf setting (s.prepared r).checkpoint.1 t.concluding t])
        (conclude setting (s.prepared r).checkpoint.1 t)

/-- What an operation of some kind does. -/
inductive OperatedAs (setting : Setting) (s : Executor) (op : Operation) :
    List Moment → Executor → Prop
  /-- A call, a creation or another request by itself. -/
  | course {moments : List Moment} {t : Executor} (hkind : op.isTransaction = false)
      (hkept : op.isDryRun = false) (h : Course setting [] s moments t) :
      OperatedAs setting s op moments t
  /-- A transaction. -/
  | transaction {moments : List Moment} {t : Executor} (hkept : op.isDryRun = false)
      (h : TransactedAs setting s moments t) : OperatedAs setting s op moments t
  /-- A transaction guarded by another checkpoint, which is restored. -/
  | dryRun {moments : List Moment} {t : Executor} (hundone : op.isDryRun = true)
      (h : TransactedAs setting s.checkpoint.2 moments t) (r : Record) :
      OperatedAs setting s op (moments ++ [settlingOf setting s.checkpoint.1 .restore t])
        ((t.settleOrLatch setting s.checkpoint.1 .restore).record r)

theorem TransactedAs.transacted (h : TransactedAs setting s moments t) :
    Transacted setting s moments t := by
  cases h with
  | intro r hremark body => exact .intro r hremark body.activity

theorem transactedAs_call (setting : Setting) (hreliable : Reliable setting)
    (caller target : Address) (value : Amount) (input : Bytes) (nrg : Budget) (s : Executor) :
    TransactedAs setting s (callTransactionChronicle setting caller target value input nrg s)
      (transactCall setting caller target value input nrg s).2 := by
  let begun := (s.prepared (.transactCall caller target value nrg.limit)).checkpoint.2
  have hcalled := called setting (begun.room setting) [] begun .call (.external caller) target
    input nrg value
  exact .intro (.transactCall caller target value nrg.limit) rfl hcalled.course fun hfatal =>
    hcalled.spared hreliable ((hcalled.tells hreliable rfl).failed hfatal)

theorem transactedAs_create (setting : Setting) (hreliable : Reliable setting) (caller : Address)
    (value : Amount) (init : Bytes) (nrg : Budget) (s : Executor) :
    TransactedAs setting s (createTransactionChronicle setting caller value init nrg s)
      (transactCreate setting caller value init nrg s).2 := by
  let begun := (s.prepared (.transactCreate caller value nrg.limit)).checkpoint.2
  have hcreated := created setting (begun.room setting) [] begun (.external caller)
    (.legacy caller) init nrg value
  exact .intro (.transactCreate caller value nrg.limit) rfl hcreated.course fun hfatal =>
    hcreated.spared hreliable ((hcreated.tells hreliable rfl).failed hfatal)

/-- **Every operation comes about as `OperatedAs` says.** -/
theorem operatedAs (setting : Setting) (hreliable : Reliable setting) (s : Executor)
    (op : Operation) :
    OperatedAs setting s op (operationChronicle setting s op) (operate setting s op) := by
  cases op with
  | transactCall caller target value input nrg =>
      exact .transaction rfl (transactedAs_call setting hreliable caller target value input nrg s)
  | transactCreate caller value init nrg =>
      exact .transaction rfl (transactedAs_create setting hreliable caller value init nrg s)
  | simulateCall caller target value input nrg =>
      exact .dryRun rfl
        (transactedAs_call setting hreliable caller target value input nrg s.checkpoint.2) _
  | estimateNrg caller target value input nrg =>
      exact .dryRun rfl
        (transactedAs_call setting hreliable caller target value input nrg s.checkpoint.2) _
  | create caller scheme init nrg value =>
      exact .course rfl rfl
        (created setting (s.room setting) [] s caller scheme init nrg value).course
  | request r => exact .course rfl rfl (coursed setting (s.room setting) [] s r)

end Executor

end MessageCalls

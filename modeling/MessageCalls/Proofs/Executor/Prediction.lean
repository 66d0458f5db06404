import MessageCalls.Proofs.Executor.Abreast
import MessageCalls.Proofs.Executor.Discipline
/-!
# MessageCalls.Proofs.Executor.Prediction

**A dry run predicts the transaction, and leaves nothing behind** (`Executor.predicts_dryRun`).

A dry run does the same as the transaction, but one layer further in and with other snapshots. Once
each of the two has taken its own checkpoint they are abreast, and no code can tell them apart
(`Executor.transactCall_congr`).
-/

namespace MessageCalls

namespace Executor

variable {setting : Setting} {s t : Executor}

/-- **A call transaction has the same outcome in states that read alike**, whatever was latched
before and whatever depth and mode were left behind. -/
theorem transactCall_congr (hreliable : Reliable setting)
    (hview : s.accounts.view = t.accounts.view) (htx : s.tx = t.tx) (caller target : Address)
    (value : Amount) (input : Bytes) (nrg : Budget) :
    (transactCall setting caller target value input nrg s).1 =
      (transactCall setting caller target value input nrg t).1 := by
  have hbegun : Abreast setting {}
      (s.prepared (.transactCall caller target value nrg.limit)).checkpoint.2
      (t.prepared (.transactCall caller target value nrg.limit)).checkpoint.2 :=
    .checkpoint_of_shown (congrArg (AccountView.shown · setting.natives) hview)
      (congrArg (TxContext.setDepth · 0) htx :) rfl rfl
  have hoverlooks := fun code frame => (setting.interpreter code frame).overlooks_nothing
  have hunaware := unaware_runner hreliable hoverlooks
  exact (sameEnd_callWith hreliable (runsAs_recorder setting _) (hunaware _) .call
    (.external caller) target input nrg value hbegun).1

/-- What a dry run of a call tells of the transaction, and what it leaves behind. -/
structure Predicts (setting : Setting) (caller target : Address) (value : Amount) (input : Bytes)
    (nrg : Budget) (s : Executor) : Prop where
  /-- The outcome is that of the transaction. -/
  outcome : (simulateCall setting caller target value input nrg s).1.outcome =
    (transactCall setting caller target value input nrg s).1
  /-- The nrg used is what the outcome does not hand back. -/
  nrgUsed : (simulateCall setting caller target value input nrg s).1.nrgUsed.toNat =
    nrg.limit.toNat - (transactCall setting caller target value input nrg s).1.nrgLeft.toNat
  /-- An estimate is made exactly of a transaction that succeeds. -/
  estimate_ok : ∀ used, (estimateNrg setting caller target value input nrg s).1 = .ok used ↔
    (transactCall setting caller target value input nrg s).1.isSuccess = true ∧
      used = (simulateCall setting caller target value input nrg s).1.nrgUsed
  /-- Otherwise the estimate tells why the transaction fails. -/
  estimate_error : ∀ failure, (estimateNrg setting caller target value input nrg s).1 =
    .error failure ↔ (transactCall setting caller target value input nrg s).1.result =
      .error failure
  /-- Neither of the two leaves anything behind. -/
  undone : ∀ t, t = (simulateCall setting caller target value input nrg s).2 ∨
    t = (estimateNrg setting caller target value input nrg s).2 →
    t.accounts.changes = s.accounts.changes ∧ t.tx.logs = s.tx.logs ∧
      t.accounts.openSnapshots = s.accounts.openSnapshots

theorem undone_simulateCall (hreliable : Reliable setting) (caller target : Address)
    (value : Amount) (input : Bytes) (nrg : Budget) (s : Executor) :
    (simulateCall setting caller target value input nrg s).2.accounts.changes =
        s.accounts.changes ∧
      (simulateCall setting caller target value input nrg s).2.tx.logs = s.tx.logs ∧
      (simulateCall setting caller target value input nrg s).2.accounts.openSnapshots =
        s.accounts.openSnapshots := by
  have htransacted := transacted_call setting caller target value input nrg s.checkpoint.2
  obtain ⟨r, hsettles⟩ := htransacted.settlesAs_restore hreliable
  exact (hsettles.restored rfl).undone

/-- **A dry run predicts the transaction and leaves nothing behind.** -/
theorem predicts_dryRun (setting : Setting) (hreliable : Reliable setting) (s : Executor)
    (caller target : Address) (value : Amount) (input : Bytes) (nrg : Budget) :
    Predicts setting caller target value input nrg s := by
  have houtcome : (simulateCall setting caller target value input nrg s).1.outcome =
      (transactCall setting caller target value input nrg s).1 :=
    transactCall_congr hreliable (view_checkpoint s) rfl caller target value input nrg
  have hestimate : (estimateNrg setting caller target value input nrg s).1 =
      (transactCall setting caller target value input nrg s).1.result.map fun _ =>
        (simulateCall setting caller target value input nrg s).1.nrgUsed := by
    rw [← houtcome]
    rfl
  refine ⟨houtcome, ?_, fun used => ?_, fun failure => ?_, ?_⟩
  · rw [← houtcome]
    exact Nrg.toNat_subSaturating nrg.limit _
  · rw [hestimate, CallOutcome.isSuccess]
    cases (transactCall setting caller target value input nrg s).1.result with
    | ok data => simp [Except.map, eq_comm]
    | error failure => simp [Except.map]
  · rw [hestimate]
    cases (transactCall setting caller target value input nrg s).1.result <;> simp [Except.map]
  · rintro t (rfl | rfl)
    · exact undone_simulateCall hreliable caller target value input nrg s
    · exact undone_simulateCall hreliable caller target value input nrg s

/-- A contract pays another one, which writes and reverts, asks what is left of it, and succeeds
or reports a fatal condition, as its input says; the machine has a snapshot open. -/
theorem predicts_nested_reverts :
    let interpreter : Interpreter := fun code frame =>
      if code = [1] then do
        let _ ← Program.request (.log ⟨frame.identity.address, [], []⟩)
        let _ ← Program.request (.call .call frame.identity 6 [] frame.nrg 3)
        let word ← Program.request (.storage 6 0)
        if frame.input = [7] then pure (.aborted .unevenSnapshot)
        else pure (.returned [UInt8.ofNat word.toNat] 5)
      else do
        let _ ← Program.request (.setStorage frame.identity.address 0 8)
        pure (.reverted [] 1)
    let setting := homesteadWith interpreter
    let s := (withTwoContracts 0).snapshot.2
    Reliable setting ∧
      (simulateCall setting 1 5 20 [] ⟨90, 1⟩ s).1 = ⟨⟨.ok [0], 5⟩, 85⟩ ∧
      Predicts setting 1 5 20 [] ⟨90, 1⟩ s ∧
      (simulateCall setting 1 5 20 [7] ⟨90, 1⟩ s).1 =
        ⟨.failed (.aborted .unevenSnapshot) 0, 90⟩ ∧
      Predicts setting 1 5 20 [7] ⟨90, 1⟩ s := by
  intro interpreter setting s
  have hreliable : Reliable setting := fun _ _ => rfl
  exact ⟨hreliable, rfl, predicts_dryRun setting hreliable s 1 5 20 [] ⟨90, 1⟩, rfl,
    predicts_dryRun setting hreliable s 1 5 20 [7] ⟨90, 1⟩⟩

end Executor

end MessageCalls

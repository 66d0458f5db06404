import MessageCalls.Proofs.Executor.Operation
import MessageCalls.Proofs.Executor.Refusals
/-!
# MessageCalls.Proofs.Executor.Survival

**A transaction survives accounts that refuse to close snapshots of its frames**
(`Executor.survives_transact`), whichever they refuse: as long as they close the outermost snapshot,
the refusals are latched, and with a condition latched nothing of the transaction remains. A dry run
survives in the same way, even if the checkpoint of the transaction in it is refused.
-/

namespace MessageCalls.Executor

variable {setting : Setting} {s t u : Executor} {moments : List Moment}

/-! ### Settling outside any frame -/

theorem isRefused_settlingOf (setting : Setting) (h : Retains s.checkpoint.2 t)
    (closing : Overlay.Closing) :
    (settlingOf setting s.checkpoint.1 closing t).isRefused =
      setting.refuses closing s.accounts.nextId := by
  show (⟨[], t, .settled closing (t.settle setting s.checkpoint.1 closing).1⟩ : Moment).isRefused =
    setting.refuses closing s.accounts.nextId
  rw [settle_eq_closingResult setting h, Setting.closingResult]
  cases setting.refuses closing s.accounts.nextId <;> rfl

theorem closed?_settlingOf (h : Retains s.checkpoint.2 t) (closing : Overlay.Closing) :
    [settlingOf setting s.checkpoint.1 closing t].filterMap Moment.closed? =
      pickedClosing Entry.closing? setting closing s.accounts.nextId := by
  rw [← closed?_settled setting [] t closing s.accounts.nextId,
    ← settle_eq_closingResult setting h closing]
  rfl

theorem closings_settleOrLatch (setting : Setting) (s t : Executor) (closing : Overlay.Closing) :
    (t.settleOrLatch setting s.checkpoint.1 closing).closings =
      t.closings ++ pickedClosing Entry.closing? setting closing s.accounts.nextId :=
  picked_settleOrLatch (fun _ => closing?_of_isRemark _) setting t s.checkpoint.1 closing

theorem closings_checkpoint (s : Executor) : s.checkpoint.2.closings = s.closings :=
  picked_checkpoint (fun _ => closing?_of_isRemark _) s

theorem closings_prepared {r : Record} (hremark : (Entry.record r).isRemark = true)
    (s : Executor) : (s.prepared r).closings = s.closings :=
  picked_skip (closing?_of_isRemark _ hremark) s

/-! ### Transactions -/

/-- What is left of the state before by an operation that forgets the depth and the mode. -/
theorem retains_prepared (r : Record) (h : Retains (s.checkpoint.2.prepared r) t) :
    Retains (s.prepared r).checkpoint.2 t :=
  ⟨h.stored, h.layers, h.logs, h.depth, h.isStatic⟩

/-- Whatever is refused, a transaction keeps what stood beneath it, and the journal tells of every
snapshot that it closed. -/
theorem Transacted.retains (h : Transacted setting s moments t) :
    (∃ r, Retains (s.prepared r) t) ∧
      t.closings = s.closings ++ moments.filterMap Moment.closed? := by
  obtain ⟨r, hremark, body⟩ := h
  rename_i moments t
  have hbody := body.toRetains
  constructor
  · exact ⟨r, (latchesOver_settleOrLatch setting hbody t.concluding).retains⟩
  · show (t.settleOrLatch setting (s.prepared r).checkpoint.1 t.concluding).closings = _
    rw [closings_settleOrLatch, body.closings_eq, closings_checkpoint, closings_prepared hremark,
      List.filterMap_append, closed?_settlingOf hbody, List.append_assoc]

/-- **No refusal is swallowed by a transaction**, not even that of its own checkpoint. -/
theorem Transacted.accepted_of_fatal_eq_none (h : Transacted setting s moments t)
    (hnone : t.fatal = none) : ∀ m ∈ moments, m.isRefused = false := by
  obtain ⟨r, hremark, body⟩ := h
  rename_i moments t
  have hbody := body.toRetains
  obtain ⟨haccepted, hbefore⟩ :=
    (latchesOver_settleOrLatch setting hbody t.concluding).accepted hnone
  have hinner := (body.accepted_of_fatal_eq_none hbefore).2
  refine List.forall_mem_append.mpr ⟨hinner, List.forall_mem_singleton.mpr ?_⟩
  rw [isRefused_settlingOf setting hbody, haccepted]

/-! ### Survival -/

/-- What an operation from `s` to `t` owes to refusals. -/
structure Survives (s : Executor) (moments : List Moment) (t : Executor) : Prop where
  /-- No refusal is swallowed. -/
  latched : (∃ m ∈ moments, m.isRefused = true) → t.fatal.isSome = true
  /-- With a fatal condition nothing of the operation remains. -/
  undone : t.fatal.isSome = true →
    t.accounts.changes = s.accounts.changes ∧ t.tx.logs = s.tx.logs ∧
      t.accounts.openSnapshots = s.accounts.openSnapshots
  /-- The moments miss no snapshot that was closed. -/
  closings_eq : t.closings = s.closings ++ moments.filterMap Moment.closed?

theorem latched_of_accepted (h : t.fatal = none → ∀ m ∈ moments, m.isRefused = false) :
    (∃ m ∈ moments, m.isRefused = true) → t.fatal.isSome = true := by
  rintro ⟨m, hm, hrefused⟩
  cases hfatal : t.fatal with
  | some cause => rfl
  | none =>
      rw [h hfatal m hm] at hrefused
      cases hrefused

/-- The state in which a transaction starts has the accounts and the logs found before. -/
theorem Unchanged.undone {r : Record} (h : Unchanged (s.prepared r) t) :
    t.accounts.changes = s.accounts.changes ∧ t.tx.logs = s.tx.logs ∧
      t.accounts.openSnapshots = s.accounts.openSnapshots := by
  have hfootprint := h.footprint_eq
  exact ⟨congrArg Footprint.changes hfootprint, congrArg Footprint.logs hfootprint,
    congrArg Footprint.openSnapshots hfootprint⟩

theorem Transacted.survives (h : Transacted setting s moments t)
    (hown : ∀ closing, setting.refuses closing s.accounts.nextId = false) :
    Survives s moments t := by
  refine ⟨latched_of_accepted h.accepted_of_fatal_eq_none, fun hfatal => ?_, h.retains.2⟩
  obtain ⟨r, hremark, body⟩ := h
  rename_i moments t
  have hlatches := latchesOver_settleOrLatch setting body.toRetains t.concluding
  obtain ⟨cause, hcause⟩ := Option.isSome_iff_exists.mp hfatal
  rcases hlatches.latched hcause with hbefore | ⟨-, hrefused, -⟩
  · have hrestore : t.concluding = .restore := by
      rw [concluding, hbefore]
      rfl
    exact (hlatches.restored hrestore (hown .restore)).undone
  · rw [show (s.prepared r).accounts.nextId = s.accounts.nextId from rfl, hown] at hrefused
    cases hrefused

/-- The journal tells of every snapshot that a dry run closed. -/
theorem closings_dryRun (h : Transacted setting s.checkpoint.2 moments t) (r' : Record)
    (hremark : (Entry.record r').isRemark = true) :
    ((t.settleOrLatch setting s.checkpoint.1 .restore).record r').closings =
      s.closings ++
        (moments ++ [settlingOf setting s.checkpoint.1 .restore t]).filterMap Moment.closed? := by
  obtain ⟨⟨r, hretains⟩, hclosings⟩ := h.retains
  have hclosed : [settlingOf setting s.checkpoint.1 .restore t].filterMap Moment.closed? =
      pickedClosing Entry.closing? setting .restore s.accounts.nextId :=
    closed?_settlingOf (retains_prepared r hretains) .restore
  have hrecorded : ((t.settleOrLatch setting s.checkpoint.1 .restore).record r').closings =
      (t.settleOrLatch setting s.checkpoint.1 .restore).closings :=
    picked_skip (closing?_of_isRemark _ hremark) _
  rw [hrecorded, closings_settleOrLatch, hclosings, closings_checkpoint, List.filterMap_append,
    hclosed, List.append_assoc]

/-- A dry run restores its own checkpoint, which stands beneath whatever its transaction left
open. -/
theorem survives_dryRun (h : Transacted setting s.checkpoint.2 moments t)
    (hown : ∀ closing, setting.refuses closing s.accounts.nextId = false) (r' : Record)
    (hremark : (Entry.record r').isRemark = true) :
    Survives s (moments ++ [settlingOf setting s.checkpoint.1 .restore t])
      ((t.settleOrLatch setting s.checkpoint.1 .restore).record r') := by
  obtain ⟨r, hretains⟩ := h.retains.1
  have hbeneath := retains_prepared r hretains
  have hlatches := latchesOver_settleOrLatch setting hbeneath .restore
  have hmoment : (settlingOf setting s.checkpoint.1 .restore t).isRefused = false :=
    (isRefused_settlingOf setting hbeneath .restore).trans (hown .restore)
  refine ⟨latched_of_accepted fun hnone => ?_, fun _ => ?_, closings_dryRun h r' hremark⟩
  · obtain ⟨-, hbefore⟩ := hlatches.accepted hnone
    exact List.forall_mem_append.mpr
      ⟨h.accepted_of_fatal_eq_none hbefore, List.forall_mem_singleton.mpr hmoment⟩
  · exact (hlatches.restored rfl (hown .restore)).undone

/-- **A transaction survives every refusal but that of its own checkpoint**, and a dry run every
refusal but that of the checkpoint that it takes first. -/
theorem survives_transact (setting : Setting) (s : Executor)
    (hown : ∀ closing, setting.refuses closing s.accounts.nextId = false) :
    (∀ caller target value input nrg,
      Survives s (callTransactionChronicle setting caller target value input nrg s)
        (transactCall setting caller target value input nrg s).2) ∧
    (∀ caller value init nrg,
      Survives s (createTransactionChronicle setting caller value init nrg s)
        (transactCreate setting caller value init nrg s).2) ∧
    ∀ caller target value input nrg,
      Survives s (simulateCallChronicle setting caller target value input nrg s)
        (simulateCall setting caller target value input nrg s).2 := by
  refine ⟨fun caller target value input nrg => ?_, fun caller value init nrg => ?_,
    fun caller target value input nrg => ?_⟩
  · exact (transacted_call setting caller target value input nrg s).survives hown
  · exact (transacted_create setting caller value init nrg s).survives hown
  · exact survives_dryRun (transacted_call setting caller target value input nrg s.checkpoint.2)
      hown _ rfl

/-- A contract pays another one, which writes and reverts, ignores its failure and succeeds. No
snapshot taken after that of the transaction can be closed; in the dry run not even that one. -/
theorem survives_leaking_frames :
    let interpreter : Interpreter := fun code frame =>
      if code = [1] then do
        let _ ← Program.request (.call .call frame.identity 6 [] frame.nrg 3)
        let _ ← Program.request (.setStorage frame.identity.address 0 7)
        pure (.returned [9] 5)
      else do
        let _ ← Program.request (.setStorage frame.identity.address 0 8)
        pure (.reverted [] 1)
    let setting : Setting := { homesteadWith interpreter with refuses := fun _ id => 0 < id }
    let s := withTwoContracts 0
    let transacted := (transactCall setting 1 5 20 [] ⟨90, 1⟩ s).2
    let simulated := (simulateCall setting 1 5 20 [] ⟨90, 1⟩ s).2
    let moments := callTransactionChronicle setting 1 5 20 [] ⟨90, 1⟩ s
    let simulation := simulateCallChronicle setting 1 5 20 [] ⟨90, 1⟩ s
    (∀ closing, setting.refuses closing s.accounts.nextId = false) ∧
      moments.countP Moment.isRefused = 2 ∧ simulation.countP Moment.isRefused = 3 ∧
      transacted.fatal = some .unevenSnapshot ∧ Survives s moments transacted ∧
      simulated.fatal = some .unevenSnapshot ∧ Survives s simulation simulated := by
  intro interpreter setting s transacted simulated moments simulation
  have hown : ∀ closing, setting.refuses closing s.accounts.nextId = false := fun _ => rfl
  obtain ⟨hcalls, -, hdryRuns⟩ := survives_transact setting s hown
  refine ⟨hown, by decide +kernel, by decide +kernel, rfl, ?_, rfl, ?_⟩
  · exact hcalls 1 5 20 [] ⟨90, 1⟩
  · exact hdryRuns 1 5 20 [] ⟨90, 1⟩

end MessageCalls.Executor

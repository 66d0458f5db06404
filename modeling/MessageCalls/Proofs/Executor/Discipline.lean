import MessageCalls.Proofs.Executor.Sources
import MessageCalls.Proofs.Executor.Survival
/-!
# MessageCalls.Proofs.Executor.Discipline

**The machine keeps the discipline of snapshots** (`Executor.disciplined_operate`). Every snapshot
that it closes is open at that moment, so an uneven snapshot is only ever reported by code; when an
operation is over, the open snapshots are those found before, and a client who holds a handle to
one of them can still close it and gets back what it was taken for.

Every operation stands on the layers found before and leaves exactly these
(`Executor.Operated.beneath`), which says all of the handles; that no closing fails is an induction
on the rules of `Executor.Activity`.
-/

namespace MessageCalls

/-- The operation is a transaction, or makes one. It forgets the fatal condition found before. -/
def Operation.isTransaction : Operation → Bool
  | .create .. | .request _ => false
  | _ => true

namespace Executor

variable {setting : Setting} {frames : List Frame} {s t u : Executor} {moments : List Moment}
  {cause : Abort}

/-! ### No closing fails -/

theorem Activity.accepted (hreliable : Reliable setting)
    (h : Activity setting frames s moments t) : ∀ m ∈ moments, m.isRefused = false := by
  induction h with
  | andThen first second ih ih' => exact List.forall_mem_append.mpr ⟨ih, ih'⟩
  | deposit h hfatal a code => exact List.forall_mem_singleton.mpr rfl
  | asked frames s room r => exact List.forall_mem_singleton.mpr rfl
  | native hfatal a => exact List.forall_mem_singleton.mpr rfl
  | entered hfatal hcode hstatic hdepth body ih => exact List.forall_mem_cons.mpr ⟨rfl, ih⟩
  | @guarded frames s t u moments exit hfatal opening body ends output nrgLeft ih =>
      have hretains := body.toRetains.trans ends.toExtends.toRetains
      have hleft := isRefused_leaveChronicle frames hretains
        (hreliable (u.closingOf exit) s.accounts.nextId) output nrgLeft
      exact List.forall_mem_cons.mpr ⟨rfl, List.forall_mem_append.mpr ⟨ih, hleft⟩⟩
  | @givenUp frames s entry h =>
      refine List.forall_mem_singleton.mpr ?_
      rw [settle_eq_closingResult setting (.refl _), closingResult_of_accepted (hreliable _ _)]
      rfl
  | _ => simp

theorem Transacted.accepted (hreliable : Reliable setting) (h : Transacted setting s moments t) :
    ∀ m ∈ moments, m.isRefused = false := by
  obtain ⟨r, hremark, body⟩ := h
  refine List.forall_mem_append.mpr ⟨body.accepted hreliable, List.forall_mem_singleton.mpr ?_⟩
  rw [isRefused_settlingOf setting body.toRetains, hreliable]

theorem Operated.accepted (hreliable : Reliable setting) (h : Operated setting s moments t) :
    ∀ m ∈ moments, m.isRefused = false := by
  cases h with
  | activity h => exact h.accepted hreliable
  | transaction h => exact h.accepted hreliable
  | @dryRun moments t h r hremark =>
      obtain ⟨r', hretains⟩ := h.retains.1
      have hsettling := isRefused_settlingOf setting (retains_prepared r' hretains) .restore
      rw [hreliable] at hsettling
      exact List.forall_mem_append.mpr
        ⟨h.accepted hreliable, List.forall_mem_singleton.mpr hsettling⟩

/-- The journal tells of every snapshot that an operation closed. -/
theorem Operated.closings_eq (h : Operated setting s moments t) :
    t.closings = s.closings ++ moments.filterMap Moment.closed? := by
  cases h with
  | activity h => exact h.closings_eq
  | transaction h => exact h.retains.2
  | dryRun h r hremark => exact closings_dryRun h r hremark

/-! ### What an operation leaves as it was -/

/-- A transaction forgets the depth and the mode; besides, it only writes. -/
theorem Transacted.extends (hreliable : Reliable setting) (h : Transacted setting s moments t) :
    ∃ r, Extends (s.prepared r) t := by
  obtain ⟨r, hremark, body⟩ := h
  rename_i moments t
  exact ⟨r, (settleOrLatch_checkpoint hreliable (body.toExtends hreliable) t.concluding).extended⟩

/-- A transaction that is undone again, but for the depth and the mode that it forgets. -/
theorem Transacted.settlesAs_restore (hreliable : Reliable setting)
    (h : Transacted setting s.checkpoint.2 moments t) :
    ∃ r, SettlesAs (s.prepared r) t .restore (t.settleOrLatch setting s.checkpoint.1 .restore) := by
  obtain ⟨r, hextends⟩ := h.extends hreliable
  have hprepared : Extends (s.prepared r).checkpoint.2 t :=
    ⟨hextends.stored, hextends.layers, hextends.logs, hextends.depth, hextends.isStatic⟩
  exact ⟨r, settleOrLatch_checkpoint hreliable hprepared .restore⟩

/-- **An operation leaves the stored state and the open snapshots as they were.** -/
theorem Operated.beneath (hreliable : Reliable setting) (h : Operated setting s moments t) :
    t.accounts.stored = s.accounts.stored ∧ t.accounts.layers = s.accounts.layers := by
  cases h with
  | activity h =>
      have hextends := h.toExtends hreliable
      exact ⟨hextends.stored, hextends.layers⟩
  | transaction h =>
      obtain ⟨r, hextends⟩ := h.extends hreliable
      exact ⟨hextends.stored, hextends.layers⟩
  | dryRun h =>
      obtain ⟨r, hsettles⟩ := h.settlesAs_restore hreliable
      exact ⟨hsettles.extended.stored, hsettles.extended.layers⟩

/-! ### Where a fatal condition comes from -/

theorem raised_of_firstRaised (h : firstRaised moments = some cause) :
    ∃ m ∈ moments, m.raised? = some cause := List.exists_of_findSome?_eq_some h

theorem Activity.raised (hreliable : Reliable setting) (h : Activity setting frames s moments t)
    (hcause : t.fatal = some cause) :
    s.fatal = some cause ∨ ∃ m ∈ moments, m.raised? = some cause := by
  rw [h.fatal_eq hreliable] at hcause
  cases hfatal : s.fatal with
  | some first =>
      rw [hfatal] at hcause
      exact Or.inl hcause
  | none =>
      rw [hfatal, Option.none_or] at hcause
      exact Or.inr (raised_of_firstRaised hcause)

theorem Transacted.raised (hreliable : Reliable setting) (h : Transacted setting s moments t)
    (hcause : t.fatal = some cause) : ∃ m ∈ moments, m.raised? = some cause := by
  obtain ⟨r, hremark, body⟩ := h
  rename_i moments t
  have hsettles := settleOrLatch_checkpoint hreliable (body.toExtends hreliable) t.concluding
  have hmet : t.fatal = some cause := hsettles.fatal.symm.trans hcause
  -- The fatal condition found before is forgotten.
  rcases body.raised hreliable hmet with hbefore | ⟨m, hm, hraised⟩
  · cases hbefore
  · exact ⟨m, List.mem_append_left _ hm, hraised⟩

theorem raised_simulateCall (hreliable : Reliable setting) {caller target : Address}
    {value : Amount} {input : Bytes} {nrg : Budget}
    (hcause : (simulateCall setting caller target value input nrg s).2.fatal = some cause) :
    ∃ m ∈ simulateCallChronicle setting caller target value input nrg s,
      m.raised? = some cause := by
  have htransacted := transacted_call setting caller target value input nrg s.checkpoint.2
  obtain ⟨r, hsettles⟩ := htransacted.settlesAs_restore hreliable
  obtain ⟨m, hm, hraised⟩ := htransacted.raised hreliable (hsettles.fatal.symm.trans hcause)
  exact ⟨m, List.mem_append_left _ hm, hraised⟩

/-- A condition latched after an operation was met in it, or else latched before and not
forgotten. -/
theorem raised_operate (hreliable : Reliable setting) {op : Operation}
    (hcause : (operate setting s op).fatal = some cause) :
    (op.isTransaction = false ∧ s.fatal = some cause) ∨
      ∃ m ∈ operationChronicle setting s op, m.raised? = some cause := by
  cases op with
  | transactCall caller target value input nrg =>
      exact Or.inr ((transacted_call setting caller target value input nrg s).raised hreliable
        hcause)
  | transactCreate caller value init nrg =>
      exact Or.inr ((transacted_create setting caller value init nrg s).raised hreliable hcause)
  | simulateCall caller target value input nrg =>
      exact Or.inr (raised_simulateCall hreliable hcause)
  | estimateNrg caller target value input nrg =>
      exact Or.inr (raised_simulateCall hreliable hcause)
  | create caller scheme init nrg value =>
      have hcreated := created setting (s.room setting) [] s caller scheme init nrg value
      exact (hcreated.activity.raised hreliable hcause).imp_left fun h => ⟨rfl, h⟩
  | request r =>
      have hactivity := answered setting (s.room setting) [] s r
      exact (hactivity.raised hreliable hcause).imp_left fun h => ⟨rfl, h⟩

/-- **Every condition met in an operation has its source.** -/
theorem sourced_operationChronicle (setting : Setting) (s : Executor) (op : Operation) :
    Sourced setting (operationChronicle setting s op) := by
  have hsettling : ∀ (point : Checkpoint) (closing : Overlay.Closing) (t : Executor),
      Sourced setting [settlingOf setting point closing t] :=
    fun _ _ _ => sourced_nil.cons rfl
  have hcalls : ∀ (caller target : Address) (value : Amount) (input : Bytes) (nrg : Budget)
      (s : Executor),
      Sourced setting (callTransactionChronicle setting caller target value input nrg s) := by
    intro caller target value input nrg s
    have hcalled : Sourced setting
        (transactCallChronicle setting caller target value input nrg s) :=
      sourced_callChronicle (sourcedFrame_recorder setting _) rfl
    exact hcalled.append (hsettling _ _ _)
  cases op with
  | transactCall caller target value input nrg => exact hcalls caller target value input nrg s
  | transactCreate caller value init nrg =>
      have hcreated : Sourced setting (transactCreateChronicle setting caller value init nrg s) :=
        sourced_createChronicle (s := (s.prepared _).checkpoint.2)
          (sourcedFrame_recorder setting _) rfl
      exact hcreated.append (hsettling _ _ _)
  | simulateCall caller target value input nrg =>
      exact (hcalls caller target value input nrg s.checkpoint.2).append (hsettling _ _ _)
  | estimateNrg caller target value input nrg =>
      exact (hcalls caller target value input nrg s.checkpoint.2).append (hsettling _ _ _)
  | create caller scheme init nrg value =>
      exact sourced_createChronicle (sourcedFrame_recorder setting _) rfl
  | request r => exact sourced_requestChronicle setting [] s r

/-! ### The discipline -/

/-- How an operation from `s` to `t` deals with snapshots. -/
structure Disciplined (setting : Setting) (op : Operation) (s : Executor) (moments : List Moment)
    (t : Executor) : Prop where
  /-- Every closing succeeds. -/
  accepted : ∀ m ∈ moments, m.isRefused = false
  /-- The moments miss no closing. -/
  closings_eq : t.closings = s.closings ++ moments.filterMap Moment.closed?
  /-- An uneven snapshot was reported by code that ran, or else before the operation. -/
  uneven : t.fatal = some .unevenSnapshot →
    (op.isTransaction = false ∧ s.fatal = some .unevenSnapshot) ∨
      ∃ m ∈ moments, m.reported? setting = some (.aborted .unevenSnapshot)
  openSnapshots : t.accounts.openSnapshots = s.accounts.openSnapshots
  /-- The handles that name an open snapshot are those that did before. -/
  isOpen_eq : ∀ handle, t.accounts.isOpen handle = s.accounts.isOpen handle
  /-- They can still be closed. -/
  closes : ∀ handle closing, s.accounts.isOpen handle = true →
    ∃ accounts, t.accounts.close handle closing = .ok accounts
  /-- A restore gives what it would have given before, but for the number of the next snapshot. -/
  restored : ∀ handle, t.accounts.close handle .restore =
    (s.accounts.close handle .restore).map fun accounts =>
      { accounts with nextId := t.accounts.nextId }

/-- **Every operation keeps the discipline of snapshots**, whatever was open before. -/
theorem disciplined_operate (setting : Setting) (hreliable : Reliable setting) (s : Executor)
    (op : Operation) :
    Disciplined setting op s (operationChronicle setting s op) (operate setting s op) := by
  have hoperated := operated setting s op
  obtain ⟨hstored, hlayers⟩ := hoperated.beneath hreliable
  have hopen : ∀ handle, (operate setting s op).accounts.isOpen handle =
      s.accounts.isOpen handle := by
    intro handle
    rw [Overlay.isOpen, Overlay.isOpen, hlayers]
  refine ⟨hoperated.accepted hreliable, hoperated.closings_eq, fun huneven => ?_, ?_, hopen,
    fun handle closing h => ?_, Overlay.close_restore_congr hstored hlayers⟩
  · rcases raised_operate hreliable huneven with hbefore | ⟨m, hm, hraised⟩
    · exact Or.inl hbefore
    · -- The machine itself meets no uneven snapshot.
      obtain hcause | hcause | hreported := sourced_operationChronicle setting s op m hm _ hraised
      · cases hcause
      · cases hcause
      · exact Or.inr hreported
  · rw [Overlay.openSnapshots, Overlay.openSnapshots, hlayers]
  · rw [Overlay.close, hopen, if_pos h]
    exact ⟨_, rfl⟩

/-- A client who holds a handle makes a dry run, in which a contract pays another one that reverts,
and then a call, in which the contract is told to report an uneven snapshot. -/
theorem disciplined_under_open_handle :
    let interpreter : Interpreter := fun code frame =>
      if code = [1] then do
        let _ ← Program.request (.call .call frame.identity 6 [] frame.nrg 3)
        if frame.input = [7] then pure (.aborted .unevenSnapshot) else pure (.returned [9] 5)
      else do
        let _ ← Program.request (.setStorage frame.identity.address 0 8)
        pure (.reverted [] 1)
    let setting := homesteadWith interpreter
    let (handle, s) := (withTwoContracts 0).snapshot
    let dryRun : Operation := .simulateCall 1 5 20 [] ⟨90, 1⟩
    let reporting : Operation := .request (.call .call (.external 1) 5 [7] ⟨90, 1⟩ 20)
    Reliable setting ∧ s.accounts.isOpen handle = true ∧
      (operationChronicle setting s dryRun).filterMap Moment.closed? =
        [.restore, .commit, .commit, .restore] ∧
      Disciplined setting dryRun s (operationChronicle setting s dryRun)
        (operate setting s dryRun) ∧
      (operate setting s reporting).fatal = some .unevenSnapshot ∧
      Disciplined setting reporting s (operationChronicle setting s reporting)
        (operate setting s reporting) := by
  intro interpreter setting
  have hreliable : Reliable setting := fun _ _ => rfl
  refine ⟨hreliable, rfl, by decide +kernel, ?_, rfl, ?_⟩
  · exact disciplined_operate setting hreliable _ _
  · exact disciplined_operate setting hreliable _ _

end Executor

end MessageCalls

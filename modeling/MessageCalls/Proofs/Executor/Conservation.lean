import MessageCalls.Proofs.Account.Total
import MessageCalls.Proofs.Executor.Discipline
import MessageCalls.Proofs.Executor.Readings
import MessageCalls.Proofs.Executor.StaticMode
/-!
# MessageCalls.Proofs.Executor.Conservation

**No operation of the machine makes or destroys value** (`Executor.conserved_session`): the sum of
all balances stays the same through any sequence of operations, with whatever outcomes, and it is
the sum that is stored when the pending writes are applied in the end.

A transfer that succeeds keeps the sum. One that fails may leave its debit behind, but then the
frame around it fails, and what is restored has the sum found before (`Executor.Activity.total_eq`).
-/

namespace MessageCalls.Executor

variable {setting : Setting} {frames : List Frame} {s t u : Executor} {moments : List Moment}

/-! ### The sum of all balances -/

/-- The sum of all balances that are read. -/
def total (s : Executor) : Nat := s.accounts.view.total

theorem Unchanged.total_eq (h : Unchanged s t) : t.total = s.total :=
  congrArg AccountView.total h.view_eq

theorem total_checkpoint (s : Executor) : s.checkpoint.2.total = s.total :=
  congrArg AccountView.total (view_checkpoint s)

theorem total_transfer {transfer : Transfer} (h : s.transfer transfer = (.ok (), t)) :
    t.total = s.total := by
  unfold Executor.transfer at h
  split at h
  · next hmoved =>
      cases h
      exact Overlay.total_transfer hmoved
  · cases h

theorem total_incNonce {a : Address} (h : s.incNonce a = .ok t) : t.total = s.total := by
  unfold incNonce at h
  split at h
  · next haccounts =>
      cases h
      obtain ⟨-, rfl⟩ := Overlay.incNonce_eq_ok_iff.mp haccounts
      exact AccountView.total_congr fun a => rfl
  · cases h

/-- **Nothing that happens between two states of the machine changes the sum of all balances.** -/
theorem Activity.total_eq (hreliable : Reliable setting)
    (h : Activity setting frames s moments t) : t.total = s.total := by
  induction h with
  | andThen first second ih ih' => exact ih'.trans ih
  | storage h a k v => exact AccountView.total_congr fun a => rfl
  | transfer h hpaid => exact total_transfer hpaid
  | nonce h hclaimed => exact total_incNonce hclaimed
  | deposit h hfatal a code => exact AccountView.total_congr fun a => rfl
  | entered hfatal hcode hstatic hdepth body ih => exact ih
  | @guarded frames s t u moments exit hfatal opening body ends output nrgLeft ih =>
      cases hsuccess : (u.finalExit exit).isSuccess with
      | true =>
          have hleft := congrArg AccountView.total
            (view_leave setting hsuccess s.checkpoint.1 output nrgLeft)
          -- No transfer failed in the end of the frame, since that would not be a success.
          obtain rfl | hfailed := ends.eq_or_failed
          · exact hleft.trans (ih.trans (total_checkpoint s))
          · rw [(of_isSuccess_finalExit hsuccess).2] at hfailed
            cases hfailed
      | false =>
          have hleaves := leavesAs_of_ends hreliable (body.toExtends hreliable) ends output nrgLeft
          refine (hleaves.unchanged ?_).total_eq
          rw [hleaves.outcome_eq, Exit.isSuccess_outcome, hsuccess]
  | @givenUp frames s entry h =>
      exact ((settlesAs_givenUp hreliable s entry).restored rfl).total_eq
  | _ => rfl

/-! ### Operations -/

theorem total_settleOrLatch_commit (setting : Setting) (s : Executor) (point : Checkpoint) :
    (s.settleOrLatch setting point .commit).total = s.total :=
  congrArg AccountView.total (view_settleOrLatch_commit setting s point)

theorem Transacted.total_eq (hreliable : Reliable setting) (h : Transacted setting s moments t) :
    t.total = s.total := by
  obtain ⟨r, hremark, body⟩ := h
  rename_i moments t
  show (t.settleOrLatch setting (s.prepared r).checkpoint.1 t.concluding).total = s.total
  cases hclosing : t.concluding with
  | commit =>
      rw [total_settleOrLatch_commit, body.total_eq hreliable, total_checkpoint]
      rfl
  | restore =>
      have hsettles := settleOrLatch_checkpoint hreliable (body.toExtends hreliable) .restore
      exact (hsettles.restored rfl).total_eq

theorem Operated.total_eq (hreliable : Reliable setting) (h : Operated setting s moments t) :
    t.total = s.total := by
  cases h with
  | activity h => exact h.total_eq hreliable
  | transaction h => exact h.total_eq hreliable
  | dryRun h =>
      obtain ⟨r, hsettles⟩ := h.settlesAs_restore hreliable
      exact (hsettles.restored rfl).total_eq

/-! ### Sessions -/

/-- What a client reaches from a state by operations of the machine, which may end in any way, and
by transfers that succeed. -/
inductive Session (setting : Setting) (s : Executor) : Executor → Prop
  | start : Session setting s s
  | operation {t : Executor} (h : Session setting s t) (op : Operation) :
      Session setting s (operate setting t op)
  | transfer {t u : Executor} (h : Session setting s t) (transfer : Transfer)
      (hpaid : t.transfer transfer = (.ok (), u)) : Session setting s u

theorem Session.kept (hreliable : Reliable setting) (h : Session setting s t) :
    t.accounts.stored = s.accounts.stored ∧ t.total = s.total := by
  induction h with
  | start => exact ⟨rfl, rfl⟩
  | @operation t h op ih =>
      have hoperated := operated setting t op
      obtain ⟨hstored, -⟩ := hoperated.beneath hreliable
      exact ⟨hstored.trans ih.1, (hoperated.total_eq hreliable).trans ih.2⟩
  | transfer h transfer hpaid ih =>
      exact ⟨(Extends.transfer hpaid).stored.trans ih.1, (total_transfer hpaid).trans ih.2⟩

/-- The balances of a machine over stored accounts sum up as they did at first. -/
structure Conserved (w : World) (t : Executor) : Prop where
  /-- The pending balances have the sum of the stored ones. -/
  pending : t.total = w.view.total
  /-- So have the balances that are stored once the pending writes are applied. -/
  applied : (w.apply t.finish.1).view.total = w.view.total
  /-- The total of the stored accounts is that sum, held at the largest amount. -/
  totalBalance : w.totalBalance.toNat = min w.view.total (2 ^ 256 - 1)
  /-- It is still once the pending writes are applied. -/
  totalBalance_applied : (w.apply t.finish.1).totalBalance.toNat = min w.view.total (2 ^ 256 - 1)

/-- **Balance is conserved**, from the stored accounts at first to those at last. -/
theorem conserved_session (setting : Setting) (hreliable : Reliable setting) (w : World)
    (s t : Executor) (hfresh : s.accounts = { stored := w.view }) (h : Session setting s t) :
    Conserved w t := by
  obtain ⟨hstored, htotal⟩ := h.kept hreliable
  have hover : t.accounts.stored = w.view := by rw [hstored, hfresh]
  have hpending : t.total = w.view.total := by
    rw [htotal, total, hfresh]
    exact AccountView.total_congr fun a => rfl
  have happlied : (w.apply t.finish.1).view.total = w.view.total := by
    rw [finish_fst, ← hpending]
    exact AccountView.total_congr fun a => World.balance_apply_finish hover a
  refine ⟨hpending, happlied, w.toNat_totalBalance, ?_⟩
  rw [World.toNat_totalBalance, happlied]

/-- A contract runs borrowed code, which pays itself, and succeeds; called again, it pays an account
that holds the largest amount, which overflows after the debit. Then the client moves value. -/
theorem conserved_overflowing_session :
    let interpreter : Interpreter := fun _ frame => do
      let _ ← Program.request (.call .callCode frame.identity 6 [] frame.nrg 3)
      if frame.input = [7] then
        let paid ← Program.request (.call .call frame.identity 7 [] frame.nrg 1)
        pure (.returned paid.output 5)
      else pure (.returned [] 5)
    let setting := homesteadWith interpreter
    let w : World :=
      ⟨((∅ : Std.ExtTreeMap Address Account).insert 1 { balance := 100 } |>.insert 5
        { balance := 10, code := [1] }).insert 7 { balance := BitVec.allOnes 256 }⟩
    let s : Executor :=
      { accounts := { stored := w.view },
        tx := { facts := {}, ancestor := fun _ => 0, depth := 0, logs := [] } }
    let called := operate setting s (.transactCall 1 5 20 [] ⟨90, 1⟩)
    let overflowed := operate setting called (.transactCall 1 5 20 [7] ⟨90, 1⟩)
    let t := (overflowed.transfer ⟨1, 6, 5⟩).2
    Reliable setting ∧ s.accounts = { stored := w.view } ∧ Session setting s t ∧
      called.fatal = none ∧ overflowed.fatal = some .balanceOverflow ∧
      [1, 5, 6, 7].map t.accounts.balance = [75, 30, 5, BitVec.allOnes 256] ∧
      Conserved w t := by
  intro interpreter setting w s called overflowed t
  have hreliable : Reliable setting := fun _ _ => rfl
  have hfresh : s.accounts = { stored := w.view } := rfl
  have hmoved : (overflowed.transfer ⟨1, 6, 5⟩).1 = .ok () := by decide +kernel
  have hpaid : overflowed.transfer ⟨1, 6, 5⟩ = (.ok (), t) :=
    (Prod.eta _).symm.trans (congrArg (·, t) hmoved)
  have hsession : Session setting s t :=
    .transfer (.operation (.operation .start _) _) ⟨1, 6, 5⟩ hpaid
  refine ⟨hreliable, hfresh, hsession, by decide +kernel, by decide +kernel, by decide +kernel, ?_⟩
  exact conserved_session setting hreliable w s t hfresh hsession

end MessageCalls.Executor

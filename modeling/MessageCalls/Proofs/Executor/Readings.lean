import MessageCalls.Proofs.Executor.Rollback
import MessageCalls.Proofs.Overlay.Readings
/-!
# MessageCalls.Proofs.Executor.Readings

What is read of the accounts and of the surroundings when a checkpoint is taken and when it is
settled. A checkpoint changes no reading; **a frame that succeeds is left with the readings that it
ends with** (`Executor.view_leave`), and only a failure drops logs (`Executor.tx_leave`).
-/

namespace MessageCalls.Executor

variable {setting : Setting} {s t : Executor}

/-! ### The accounts -/

theorem Unchanged.view_eq (h : Unchanged s t) : t.accounts.view = s.accounts.view := by
  have hfind : ∀ {α : Type} (f : ChangeSet → Option α),
      t.accounts.find? f = s.accounts.find? f := by
    intro α f
    rw [Overlay.find?_eq, Overlay.find?_eq, h.current, h.layers]
  have hpresent : t.accounts.present = s.accounts.present := by
    funext a
    rw [Overlay.present, Overlay.present, h.current, h.layers, h.stored]
  exact Overlay.view_congr h.stored (fun _ => hfind _) (fun _ => hfind _) (fun _ => hfind _)
    (fun _ => hfind _) hpresent

theorem view_checkpoint (s : Executor) : s.checkpoint.2.accounts.view = s.accounts.view :=
  Overlay.view_snapshot s.accounts

/-- A commit changes no reading, and neither does one that is refused. -/
theorem view_settle_commit (setting : Setting) (s : Executor) (point : Checkpoint) :
    (s.settle setting point .commit).2.accounts.view = s.accounts.view := by
  unfold settle close
  dsimp only
  split
  · rfl
  · split
    · next accounts haccounts =>
        rw [accounts_record, Overlay.close] at haccounts
        split at haccounts
        · cases haccounts
          exact Overlay.view_closeMany_commit _ _
        · cases haccounts
    · rfl

theorem view_settleOrLatch_commit (setting : Setting) (s : Executor) (point : Checkpoint) :
    (s.settleOrLatch setting point .commit).accounts.view = s.accounts.view := by
  have hsettled := view_settle_commit setting s point
  unfold settleOrLatch
  split
  · next h => rwa [h] at hsettled
  · next h =>
      rw [h] at hsettled
      rwa [accounts_latch]

theorem view_announce (s : Executor) (exit : Exit) (output : Bytes) :
    (s.announce exit output).accounts.view = s.accounts.view :=
  (unchanged_announce s exit output).view_eq

/-- A frame succeeds only if no fatal condition is latched and it reports a success. -/
theorem of_isSuccess_finalExit {exit : Exit} (h : (s.finalExit exit).isSuccess = true) :
    s.fatal = none ∧ exit.isSuccess = true := by
  unfold finalExit at h
  cases hfatal : s.fatal with
  | none =>
      rw [hfatal] at h
      exact ⟨rfl, h⟩
  | some cause =>
      rw [hfatal] at h
      cases h

/-- A frame that succeeds is left with the readings that it ends with. -/
theorem view_leave (setting : Setting) {exit : Exit}
    (hsuccess : (s.finalExit exit).isSuccess = true) (point : Checkpoint) (output : Bytes)
    (nrgLeft : Nrg) :
    (s.leave setting point exit output nrgLeft).2.accounts.view = s.accounts.view := by
  have hsettled := view_settle_commit setting (s.announce (s.finalExit exit) output) point
  rw [view_announce] at hsettled
  rw [leave_eq, if_pos hsuccess]
  split
  · next h => rwa [h] at hsettled
  · next h =>
      rw [h] at hsettled
      rwa [accounts_latch]

/-! ### The writes -/

/-- Settling against the innermost snapshot closes that one. -/
theorem accounts_settle (hreliable : Reliable setting) (h : Extends s.checkpoint.2 t)
    (closing : Overlay.Closing) :
    (t.settle setting s.checkpoint.1 closing).2.accounts = t.accounts.closeInnermost closing := by
  have hlayers : t.accounts.layers = ⟨s.accounts.nextId, s.accounts.current⟩ :: s.accounts.layers :=
    h.layers
  have hclose : t.accounts.close s.checkpoint.1.handle closing =
      .ok (t.accounts.closeInnermost closing) := by
    rw [Overlay.close_innermost hlayers rfl]
    exact if_pos rfl
  cases closing with
  | commit => simp [settle, close, hreliable .commit, hclose]
  | restore => simp [settle, close, hreliable .restore, hclose]

theorem accounts_settleOrLatch (hreliable : Reliable setting) (h : Extends s.checkpoint.2 t)
    (closing : Overlay.Closing) :
    (t.settleOrLatch setting s.checkpoint.1 closing).accounts =
      t.accounts.closeInnermost closing := by
  have hsettled := accounts_settle hreliable h closing
  unfold settleOrLatch
  split
  · next hresult => rwa [hresult] at hsettled
  · next hresult =>
      rw [hresult] at hsettled
      rwa [accounts_latch]

theorem accounts_announce (s : Executor) (exit : Exit) (output : Bytes) :
    (s.announce exit output).accounts = s.accounts := by
  unfold announce
  split
  · exact accounts_latch _ _
  · rfl

theorem accounts_leave (hreliable : Reliable setting) (h : Extends s.checkpoint.2 t) (exit : Exit)
    (output : Bytes) (nrgLeft : Nrg) :
    (t.leave setting s.checkpoint.1 exit output nrgLeft).2.accounts =
      t.accounts.closeInnermost (if (t.finalExit exit).isSuccess then .commit else .restore) := by
  have hannounced := (unchanged_announce t (t.finalExit exit) output).toExtends
  have hsettled := accounts_settle hreliable (h.trans hannounced)
    (if (t.finalExit exit).isSuccess then .commit else .restore)
  rw [accounts_announce] at hsettled
  rw [leave_eq]
  split
  · next hresult => rwa [hresult] at hsettled
  · next hresult =>
      rw [hresult] at hsettled
      rwa [accounts_latch]

/-- What was written since the snapshot beneath, once the innermost one is closed. -/
theorem current_closeInnermost (h : Extends s.checkpoint.2 t) (closing : Overlay.Closing) :
    (t.accounts.closeInnermost closing).current =
      match closing with
      | .commit => s.accounts.current.merge t.accounts.current
      | .restore => s.accounts.current := by
  have hlayers : t.accounts.layers = ⟨s.accounts.nextId, s.accounts.current⟩ :: s.accounts.layers :=
    h.layers
  cases closing with
  | commit => rw [Overlay.closeInnermost_cons hlayers]
  | restore => rw [Overlay.closeInnermost_cons hlayers]

/-! ### The surroundings -/

theorem tx_close (s : Executor) (handle : Snapshot) (closing : Overlay.Closing) :
    (s.close setting handle closing).2.tx = s.tx := by
  unfold close
  dsimp only
  split
  · rfl
  · split <;> rfl

theorem tx_settle (setting : Setting) (s : Executor) (point : Checkpoint)
    (closing : Overlay.Closing) :
    (s.settle setting point closing).2.tx =
      match closing with
      | .commit => s.tx
      | .restore => s.tx.truncateLogs point.logs := by
  cases closing with
  | commit => exact tx_close s _ _
  | restore => exact tx_close _ _ _

theorem tx_settleOrLatch (setting : Setting) (s : Executor) (point : Checkpoint)
    (closing : Overlay.Closing) :
    (s.settleOrLatch setting point closing).tx =
      match closing with
      | .commit => s.tx
      | .restore => s.tx.truncateLogs point.logs := by
  rw [← tx_settle setting s point closing]
  unfold settleOrLatch
  split
  · next h => rw [h]
  · next h => rw [h, tx_latch]

theorem tx_announce (s : Executor) (exit : Exit) (output : Bytes) :
    (s.announce exit output).tx = s.tx := by
  unfold announce
  split
  · exact tx_latch _ _
  · rfl

theorem tx_leave (setting : Setting) (s : Executor) (point : Checkpoint) (exit : Exit)
    (output : Bytes) (nrgLeft : Nrg) :
    (s.leave setting point exit output nrgLeft).2.tx =
      if (s.finalExit exit).isSuccess then s.tx else s.tx.truncateLogs point.logs := by
  have hsettled := tx_settle setting (s.announce (s.finalExit exit) output) point
    (if (s.finalExit exit).isSuccess then .commit else .restore)
  rw [tx_announce] at hsettled
  have hclosed : (s.leave setting point exit output nrgLeft).2.tx =
      ((s.announce (s.finalExit exit) output).settle setting point
        (if (s.finalExit exit).isSuccess then .commit else .restore)).2.tx := by
    rw [leave_eq]
    split
    · next h => rw [h]
    · next h => rw [h, tx_latch]
  rw [hclosed, hsettled]
  cases (s.finalExit exit).isSuccess <;> rfl

/-- A frame that was entered in `s` and has come to `u` is left with all that it reads then, or else
as if it had not been entered. -/
theorem leave_cases (hreliable : Reliable setting) {u : Executor} (h : Extends s.checkpoint.2 u)
    (exit : Exit) (output : Bytes) (nrgLeft : Nrg) :
    ((u.leave setting s.checkpoint.1 exit output nrgLeft).1.isSuccess = true ∧
      (u.leave setting s.checkpoint.1 exit output nrgLeft).2.accounts.view = u.accounts.view ∧
      (u.leave setting s.checkpoint.1 exit output nrgLeft).2.tx = u.tx) ∨
    ((u.leave setting s.checkpoint.1 exit output nrgLeft).1.isSuccess = false ∧
      Unchanged s (u.leave setting s.checkpoint.1 exit output nrgLeft).2) := by
  have hleaves := leavesAs_leave hreliable h exit output nrgLeft
  have houtcome : (u.leave setting s.checkpoint.1 exit output nrgLeft).1.isSuccess =
      (u.finalExit exit).isSuccess := by
    rw [hleaves.outcome_eq, Exit.isSuccess_outcome]
  cases hsuccess : (u.finalExit exit).isSuccess with
  | true =>
      have hview := view_leave setting hsuccess s.checkpoint.1 output nrgLeft
      exact Or.inl ⟨houtcome.trans hsuccess, hview, by rw [tx_leave, if_pos hsuccess]⟩
  | false =>
      rw [hsuccess] at houtcome
      exact Or.inr ⟨houtcome, hleaves.unchanged houtcome⟩

end MessageCalls.Executor

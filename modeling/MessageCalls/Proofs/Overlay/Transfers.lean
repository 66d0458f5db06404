import Mathlib.Control.Monad.Basic
import MessageCalls.Account.World
import MessageCalls.Proofs.Overlay.Readings
import MessageCalls.Proofs.Overlay.Writes
/-!
# MessageCalls.Proofs.Overlay.Transfers

What becomes of an overlay when value is to move. There are three ways for it to come out
(`Overlay.transfers`): the source cannot afford the value, and nothing is written; the target cannot
hold it; or it moves, in exact numbers (`AccountView.Moved`).

**A transfer succeeds exactly when it can** (`Overlay.settled_transfer`): the source is looked at
first, and the target only when it is another account. **A target that cannot hold the value costs
the source the value all the same** (`Overlay.debited_of_failed_transfer`). The debit is written
before the credit is computed, and only a snapshot taken before can undo it.
-/

namespace MessageCalls

/-- Value has moved from one account to another, or from an account to itself. -/
structure AccountView.Moved (v : AccountView) (t : Transfer) (w : AccountView) : Prop where
  source : t.source ≠ t.target →
    (w.balance t.source).toNat + t.value.toNat = (v.balance t.source).toNat
  target : t.source ≠ t.target →
    (w.balance t.target).toNat = (v.balance t.target).toNat + t.value.toNat
  /-- An account that pays itself keeps its balance. -/
  self : t.source = t.target → w.balance = v.balance
  others : ∀ a, a ≠ t.source → a ≠ t.target → w.balance a = v.balance a
  /-- Both accounts are present from then on, whatever the value is. -/
  present : ∀ a, w.present a = true ↔ v.present a = true ∨ a = t.source ∨ a = t.target
  nonce : w.nonce = v.nonce
  code : w.code = v.code
  codeHash : w.codeHash = v.codeHash
  storage : w.storage = v.storage

namespace ChangeSet

/-- A balance is written. -/
def setBalance (c : ChangeSet) (a : Address) (v : Amount) : ChangeSet :=
  { c with balances := c.balances.insert a v }

/-- The last write of a merged change set may as well be made after the merge. -/
theorem merge_setBalance (older newer : ChangeSet) (a : Address) (v : Amount) :
    older.merge (newer.setBalance a v) = (older.merge newer).setBalance a v := by
  refine ext (fun b => ?_) (fun _ => rfl) (fun _ => rfl) (fun _ => rfl)
  rw [getElem?_balances_merge, setBalance, setBalance, Std.ExtTreeMap.getElem?_insert,
    Std.ExtTreeMap.getElem?_insert, getElem?_balances_merge]
  split <;> rfl

end ChangeSet

namespace Overlay

variable {o p : Overlay} {t : Transfer}

theorem changes_setBalance (o : Overlay) (a : Address) (v : Amount) :
    (o.setBalance a v).changes = o.changes.setBalance a v :=
  ChangeSet.merge_setBalance _ o.current a v

@[simp] theorem balance_setBalance (o : Overlay) (a : Address) (v : Amount) (b : Address) :
    (o.setBalance a v).balance b = if b = a then v else o.balance b := by
  have hview := congrArg AccountView.balance (view_setBalance o a v)
  exact (congrFun hview b).trans (Function.update_apply ..)

@[simp] theorem present_setBalance (o : Overlay) (a : Address) (v : Amount) (b : Address) :
    (o.setBalance a v).present b = if b = a then true else o.present b := by
  have hview := congrArg AccountView.present (view_setBalance o a v)
  exact (congrFun hview b).trans (Function.update_apply ..)

/-! ### The three ways -/

/-- How a transfer comes out, and what it leaves of an overlay. -/
inductive Transfers (o : Overlay) (t : Transfer) : Except Failure Unit → Overlay → Prop
  /-- The source cannot afford the value. -/
  | unaffordable (h : (o.balance t.source).toNat < t.value.toNat) :
      Transfers o t (.error (.halted .insufficientBalance)) o
  /-- The target is another account, which cannot hold the value. -/
  | overflowing (hpaid : t.value.toNat ≤ (o.balance t.source).toNat) (hother : t.source ≠ t.target)
      (hfull : 2 ^ 256 ≤ (o.balance t.target).toNat + t.value.toNat) :
      Transfers o t (.error (.aborted .balanceOverflow))
        (o.setBalance t.source (o.balance t.source - t.value))
  /-- The value moves. -/
  | moved {p : Overlay} (hpaid : t.value.toNat ≤ (o.balance t.source).toNat)
      (hfits : t.source ≠ t.target → (o.balance t.target).toNat + t.value.toNat < 2 ^ 256)
      (hmoved : o.view.Moved t p.view) : Transfers o t (.ok ()) p

/-- A credit that fits completes the movement that the debit began. -/
theorem moved_of_credit {credit : Amount} (hpaid : t.value.toNat ≤ (o.balance t.source).toNat)
    (hcredit : credit.toNat =
      ((o.setBalance t.source (o.balance t.source - t.value)).balance t.target).toNat +
        t.value.toNat) :
    o.view.Moved t
      ((o.setBalance t.source (o.balance t.source - t.value)).setBalance t.target credit).view := by
  have hdebit : (o.balance t.source - t.value).toNat =
      (o.balance t.source).toNat - t.value.toNat := BitVec.toNat_sub_of_le hpaid
  have hbalance : ∀ a,
      ((o.setBalance t.source (o.balance t.source - t.value)).setBalance t.target
          credit).view.balance a =
        if a = t.target then credit
        else if a = t.source then o.balance t.source - t.value else o.balance a := by
    intro a
    show Overlay.balance _ a = _
    rw [balance_setBalance, balance_setBalance]
  rw [balance_setBalance] at hcredit
  constructor
  case source =>
    intro hother
    rw [hbalance, if_neg hother, if_pos rfl, hdebit]
    show _ = (o.balance t.source).toNat
    omega
  case target =>
    intro hother
    rw [if_neg (Ne.symm hother)] at hcredit
    rw [hbalance, if_pos rfl, hcredit]
    rfl
  case self =>
    intro hself
    funext a
    rw [if_pos hself.symm, hdebit, Nat.sub_add_cancel hpaid] at hcredit
    rw [hbalance, BitVec.eq_of_toNat_eq hcredit]
    by_cases ha : a = t.target
    · rw [if_pos ha, ha, ← hself]
      rfl
    · rw [if_neg ha, if_neg (hself ▸ ha)]
      rfl
  case others =>
    intro a hsource htarget
    rw [hbalance, if_neg htarget, if_neg hsource]
    rfl
  case present =>
    intro a
    show Overlay.present _ a = true ↔ o.present a = true ∨ _
    rw [present_setBalance, present_setBalance]
    grind
  all_goals
    rw [view_setBalance, view_setBalance]
    rfl

/-- **Every transfer comes out in one of the three ways.** -/
theorem transfers (o : Overlay) (t : Transfer) :
    Transfers o t (o.transfer t).1 (o.transfer t).2 := by
  unfold transfer
  by_cases hshort : o.balance t.source < t.value
  · rw [if_pos hshort]
    exact .unaffordable (BitVec.lt_def.mp hshort)
  · rw [if_neg hshort]
    have hpaid : t.value.toNat ≤ (o.balance t.source).toNat := by
      simpa [BitVec.lt_def] using hshort
    dsimp only
    cases hcredit : ((o.setBalance t.source (o.balance t.source - t.value)).balance
        t.target).add? t.value with
    | some credit =>
        have hadded := Amount.add?_eq_some_iff.mp hcredit
        refine .moved hpaid (fun hother => ?_) (moved_of_credit hpaid hadded)
        rw [balance_setBalance, if_neg (Ne.symm hother)] at hadded
        exact hadded ▸ credit.isLt
    | none =>
        have hfull := Amount.add?_eq_none_iff.mp hcredit
        -- What an account has given fits into it again.
        have hother : t.source ≠ t.target := by
          intro hself
          rw [balance_setBalance, if_pos hself.symm, BitVec.toNat_sub_of_le hpaid,
            Nat.sub_add_cancel hpaid] at hfull
          exact absurd (o.balance t.source).isLt (Nat.not_lt.mpr hfull)
        rw [balance_setBalance, if_neg (Ne.symm hother)] at hfull
        exact .overflowing hpaid hother hfull

/-! ### Transfers that succeed -/

/-- The source has the value, and the target can hold it unless it is the source. -/
def CanTransfer (o : Overlay) (t : Transfer) : Prop :=
  t.value.toNat ≤ (o.balance t.source).toNat ∧
    (t.source ≠ t.target → (o.balance t.target).toNat + t.value.toNat < 2 ^ 256)

namespace Transfers

variable {outcome : Except Failure Unit}

theorem eq_ok_iff (h : Transfers o t outcome p) : outcome = .ok () ↔ o.CanTransfer t := by
  cases h with
  | unaffordable hshort =>
      refine iff_of_false (by simp) ?_
      intro hcan
      exact absurd hcan.1 (Nat.not_le.mpr hshort)
  | overflowing hpaid hother hfull =>
      refine iff_of_false (by simp) ?_
      intro hcan
      exact absurd (hcan.2 hother) (Nat.not_lt.mpr hfull)
  | moved hpaid hfits hmoved => exact iff_of_true rfl ⟨hpaid, hfits⟩

/-- The source is looked at first: whether the target could hold the value does not matter. -/
theorem eq_insufficientBalance_iff (h : Transfers o t outcome p) :
    outcome = .error (.halted .insufficientBalance) ↔
      (o.balance t.source).toNat < t.value.toNat := by
  cases h with
  | unaffordable hshort => simp [hshort]
  | overflowing hpaid hother hfull => simpa using hpaid
  | moved hpaid hfits hmoved => simpa using hpaid

theorem eq_balanceOverflow_iff (h : Transfers o t outcome p) :
    outcome = .error (.aborted .balanceOverflow) ↔
      t.value.toNat ≤ (o.balance t.source).toNat ∧ t.source ≠ t.target ∧
        2 ^ 256 ≤ (o.balance t.target).toNat + t.value.toNat := by
  cases h with
  | unaffordable hshort =>
      refine iff_of_false (by simp) ?_
      rintro ⟨hpaid, -, -⟩
      exact absurd hpaid (Nat.not_le.mpr hshort)
  | overflowing hpaid hother hfull => exact iff_of_true rfl ⟨hpaid, hother, hfull⟩
  | moved hpaid hfits hmoved =>
      refine iff_of_false (by simp) ?_
      rintro ⟨-, hother, hfull⟩
      exact absurd hfull (Nat.not_le.mpr (hfits hother))

theorem moved_of_eq_ok (h : Transfers o t outcome p) (hok : outcome = .ok ()) :
    o.view.Moved t p.view := by
  cases h with
  | moved hpaid hfits hmoved => exact hmoved
  | _ => cases hok

end Transfers

/-- The pending writes of a transfer that succeeds: the debit, and the credit after it. -/
theorem changes_of_transfer_eq_ok (h : o.transfer t = (.ok (), p)) :
    p.changes = (o.changes.setBalance t.source (o.balance t.source - t.value)).setBalance t.target
      (p.balance t.target) := by
  unfold transfer at h
  split at h
  · cases h
  · dsimp only at h
    split at h
    · cases h
    · cases h
      rw [changes_setBalance, changes_setBalance, balance_setBalance, if_pos rfl]

/-- When a transfer succeeds, which reason it gives otherwise, and what it does. -/
structure Settled (o : Overlay) (t : Transfer) : Prop where
  succeeds : (o.transfer t).1 = .ok () ↔ o.CanTransfer t
  /-- A source that is short of the value is reported, whatever the target could hold. -/
  short : (o.transfer t).1 = .error (.halted .insufficientBalance) ↔
    (o.balance t.source).toNat < t.value.toNat
  /-- A target that is too full is reported only of a source that can pay, and of another account. -/
  full : (o.transfer t).1 = .error (.aborted .balanceOverflow) ↔
    t.value.toNat ≤ (o.balance t.source).toNat ∧ t.source ≠ t.target ∧
      2 ^ 256 ≤ (o.balance t.target).toNat + t.value.toNat
  /-- Exactly the value moves, and both accounts exist from then on. -/
  moved : (o.transfer t).1 = .ok () → o.view.Moved t (o.transfer t).2.view
  /-- Both balances are written, also where they stay the same, and nothing else. -/
  changes : (o.transfer t).1 = .ok () → (o.transfer t).2.changes =
    (o.changes.setBalance t.source (o.balance t.source - t.value)).setBalance t.target
      ((o.transfer t).2.balance t.target)
  /-- They are written to the innermost layer. -/
  beneath : (o.transfer t).2.layers = o.layers

/-- **A transfer succeeds exactly when it can**, and then moves exactly the value. -/
theorem settled_transfer (o : Overlay) (t : Transfer) : Settled o t := by
  have htransfers := o.transfers t
  constructor
  case succeeds => exact htransfers.eq_ok_iff
  case short => exact htransfers.eq_insufficientBalance_iff
  case full => exact htransfers.eq_balanceOverflow_iff
  case moved => exact htransfers.moved_of_eq_ok
  case changes => exact fun hok => changes_of_transfer_eq_ok (Prod.ext hok rfl)
  case beneath => exact (beneath_transfer o t).2

/-- An account with the largest balance pays itself all of it, and an account that does not exist
pays nothing to another one. -/
example :
    let o : Overlay :=
      { stored := ⟨fun a => if a = 1 then BitVec.allOnes 256 else 0, fun _ => 0, fun _ => [],
          fun _ => 0, fun _ _ => 0, fun a => a = 1⟩ }
    (o.transfer ⟨1, 1, BitVec.allOnes 256⟩).1 = .ok () ∧ (o.transfer ⟨2, 3, 0⟩).1 = .ok () ∧
      [2, 3, 4].map (fun a => (o.transfer ⟨2, 3, 0⟩).2.present a) = [true, true, false] := by
  decide +kernel

/-! ### Transfers that fail -/

/-- A value was taken from the source of a transfer and given to nobody. -/
structure Debited (o : Overlay) (t : Transfer) (p : Overlay) : Prop where
  /-- The target is another account, which could not hold the value. -/
  other : t.source ≠ t.target
  full : 2 ^ 256 ≤ (o.balance t.target).toNat + t.value.toNat
  /-- The source has lost the value, which is not zero. -/
  source : (p.balance t.source).toNat + t.value.toNat = (o.balance t.source).toNat
  lost : p.balance t.source ≠ o.balance t.source
  balances : ∀ a, a ≠ t.source → p.balance a = o.balance a
  present : ∀ a, p.present a = true ↔ o.present a = true ∨ a = t.source
  /-- One pending write has been added, to the innermost layer. -/
  changes : p.changes = o.changes.setBalance t.source (p.balance t.source)
  readings : p.nonce = o.nonce ∧ p.code = o.code ∧ p.codeHash = o.codeHash ∧ p.storage = o.storage
  layers : p.layers = o.layers

theorem debited_setBalance (hpaid : t.value.toNat ≤ (o.balance t.source).toNat)
    (hother : t.source ≠ t.target) (hfull : 2 ^ 256 ≤ (o.balance t.target).toNat + t.value.toNat) :
    Debited o t (o.setBalance t.source (o.balance t.source - t.value)) := by
  have hleft : ((o.setBalance t.source (o.balance t.source - t.value)).balance t.source).toNat +
      t.value.toNat = (o.balance t.source).toNat := by
    rw [balance_setBalance, if_pos rfl, BitVec.toNat_sub_of_le hpaid, Nat.sub_add_cancel hpaid]
  have hview := view_setBalance o t.source (o.balance t.source - t.value)
  constructor
  case other => exact hother
  case full => exact hfull
  case source => exact hleft
  case lost =>
    intro hsame
    rw [hsame] at hleft
    have hbound := (o.balance t.target).isLt
    omega
  case balances =>
    intro a ha
    rw [balance_setBalance, if_neg ha]
  case present =>
    intro a
    rw [present_setBalance]
    grind
  case changes => rw [changes_setBalance, balance_setBalance, if_pos rfl]
  case readings =>
    exact ⟨congrArg AccountView.nonce hview, congrArg AccountView.code hview,
      congrArg AccountView.codeHash hview, congrArg AccountView.storage hview⟩
  case layers => rfl

/-- **A transfer that fails leaves everything as it was, if the source could not afford it**; if the
target could not hold the value, the source has been debited, and nothing else was done. -/
theorem debited_of_failed_transfer (o : Overlay) (t : Transfer) (failure : Failure) (p : Overlay)
    (h : o.transfer t = (.error failure, p)) :
    failure = .halted .insufficientBalance ∧ (o.balance t.source).toNat < t.value.toNat ∧ p = o ∨
      failure = .aborted .balanceOverflow ∧ Debited o t p := by
  have htransfers := o.transfers t
  rw [h] at htransfers
  cases htransfers with
  | unaffordable hshort => exact Or.inl ⟨rfl, hshort, rfl⟩
  | overflowing hpaid hother hfull => exact Or.inr ⟨rfl, debited_setBalance hpaid hother hfull⟩

/-- Accounts 1 and 2 have ten and the largest balance. -/
def oneFull : World :=
  ⟨((∅ : Std.ExtTreeMap Address Account).insert 1 { balance := 10 }).insert 2
    { balance := BitVec.allOnes 256 }⟩

/-- The first account cannot afford to pay eleven to the second one, which cannot hold three of the
ten. -/
theorem debited_of_full_target :
    let o : Overlay := { stored := oneFull.view }
    let short : Transfer := ⟨1, 2, 11⟩
    let full : Transfer := ⟨1, 2, 3⟩
    o.transfer short = (.error (.halted .insufficientBalance), (o.transfer short).2) ∧
      (o.transfer short).2 = o ∧
      o.transfer full = (.error (.aborted .balanceOverflow), (o.transfer full).2) ∧
      Debited o full (o.transfer full).2 := by
  intro o short full
  have hshort : (o.transfer short).1 = .error (.halted .insufficientBalance) := by decide +kernel
  have hfull : (o.transfer full).1 = .error (.aborted .balanceOverflow) := by decide +kernel
  have hshort' : o.transfer short = (.error (.halted .insufficientBalance), (o.transfer short).2) :=
    Prod.ext hshort rfl
  have hfull' : o.transfer full = (.error (.aborted .balanceOverflow), (o.transfer full).2) :=
    Prod.ext hfull rfl
  refine ⟨hshort', ?_, hfull', ?_⟩
  · rcases debited_of_failed_transfer o short _ _ hshort' with ⟨-, -, hsame⟩ | ⟨hcause, -⟩
    · exact hsame
    · cases hcause
  · rcases debited_of_failed_transfer o full _ _ hfull' with ⟨hcause, -⟩ | ⟨-, hdebited⟩
    · cases hcause
    · exact hdebited

/-- The transfer fails, and yet the payer has three less than before and a write is pending. -/
theorem debited_by_overflow :
    let o : Overlay := { stored := oneFull.view }
    let p := (o.transfer ⟨1, 2, 3⟩).2
    (o.transfer ⟨1, 2, 3⟩).1 = .error (.aborted .balanceOverflow) ∧
      o.balance 1 = 10 ∧ p.balance 1 = 7 ∧ p.balance 2 = o.balance 2 ∧
      o.changes.balances[(1 : Address)]? = none ∧ p.changes.balances[(1 : Address)]? = some 7 := by
  decide +kernel

end Overlay

end MessageCalls

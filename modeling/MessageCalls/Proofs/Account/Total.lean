import Mathlib.Algebra.BigOperators.Group.Finset.Piecewise
import Mathlib.Data.FinEnum
import MessageCalls.Proofs.Overlay.Readings
import MessageCalls.Proofs.World.Applying
/-!
# MessageCalls.Proofs.Account.Total

The sum of all balances, as an exact number. **A transfer that succeeds keeps it**
(`Overlay.total_transfer`), also one from an account to itself, which debits the account and then
credits it from what is left; what is stored sums up in the same way, held at the largest amount
(`World.toNat_totalBalance`).
-/

namespace MessageCalls

open scoped BigOperators

/-- The sum of the balances of all addresses. -/
def AccountView.total (v : AccountView) : Nat := ∑ a : Address, (v.balance a).toNat

namespace AccountView

theorem total_congr {v w : AccountView} (h : ∀ a, v.balance a = w.balance a) :
    v.total = w.total :=
  Finset.sum_congr rfl fun a _ => congrArg BitVec.toNat (h a)

/-- A written balance takes the place of the one found before. -/
theorem total_setBalance (v : AccountView) (a : Address) (x : Amount) :
    (v.setBalance a x).total + (v.balance a).toNat = v.total + x.toNat := by
  have hwritten : ∀ b, ((v.setBalance a x).balance b).toNat =
      Function.update (fun b => (v.balance b).toNat) a x.toNat b := by
    intro b
    show (Function.update v.balance a x b).toNat = _
    by_cases hb : b = a
    · subst hb
      rw [Function.update_self, Function.update_self]
    · rw [Function.update_of_ne hb, Function.update_of_ne hb]
  have hrest := Finset.add_sum_erase Finset.univ (fun b => (v.balance b).toNat)
    (Finset.mem_univ a)
  rw [total, total, Finset.sum_congr rfl fun b _ => hwritten b,
    Finset.sum_update_of_mem (Finset.mem_univ a), Finset.sdiff_singleton_eq_erase, ← hrest]
  omega

end AccountView

/-! ### Transfers -/

/-- **A transfer that succeeds keeps the sum of all balances**, whoever pays whom. -/
theorem Overlay.total_transfer {o p : Overlay} {t : Transfer} (h : o.transfer t = (.ok (), p)) :
    p.view.total = o.view.total := by
  unfold Overlay.transfer at h
  by_cases hshort : o.balance t.source < t.value
  · rw [if_pos hshort] at h
    cases h
  · rw [if_neg hshort] at h
    dsimp only at h
    have hdebit := AccountView.total_setBalance o.view t.source (o.balance t.source - t.value)
    rw [← view_setBalance] at hdebit
    generalize hdebited : o.setBalance t.source (o.balance t.source - t.value) = debited
      at h hdebit
    have henough : t.value.toNat ≤ (o.balance t.source).toNat := by
      simpa [BitVec.lt_def] using hshort
    have hleft : (o.balance t.source - t.value).toNat =
        (o.balance t.source).toNat - t.value.toNat := BitVec.toNat_sub_of_le henough
    split at h
    · cases h
    · next credit hcredit =>
        cases h
        -- The credit is added to what the target has once the source is debited.
        have hadded := Amount.add?_eq_some_iff.mp hcredit
        have hpaid := AccountView.total_setBalance debited.view t.target credit
        rw [← view_setBalance] at hpaid
        have hsource : o.view.balance t.source = o.balance t.source := rfl
        have htarget : debited.view.balance t.target = debited.balance t.target := rfl
        rw [hsource] at hdebit
        rw [htarget] at hpaid
        omega

/-! ### Stored accounts -/

namespace World

/-- Amounts that are added one after another, each sum held at the largest amount, give their exact
sum held there. -/
theorem toNat_foldl_addSaturating (entries : List (Address × Account)) (total : Amount)
    (exact : Nat) (h : total.toNat = min exact (2 ^ 256 - 1)) :
    (entries.foldl (fun total entry => Amount.addSaturating total entry.2.balance) total).toNat =
      min (entries.foldl (fun exact entry => exact + entry.2.balance.toNat) exact)
        (2 ^ 256 - 1) := by
  induction entries generalizing total exact with
  | nil => exact h
  | cons entry entries ih =>
      refine ih _ (exact + entry.2.balance.toNat) ?_
      rw [Amount.toNat_addSaturating, h]
      omega

/-- Only stored accounts have a balance other than zero. -/
theorem foldl_toList_eq_total (w : World) :
    w.accounts.toList.foldl (fun exact entry => exact + entry.2.balance.toNat) 0 =
      w.view.total := by
  have hbalances : (w.accounts.toList.map fun entry => entry.2.balance.toNat) =
      w.accounts.keys.map fun a => (w.view.balance a).toNat := by
    rw [← Std.ExtTreeMap.map_fst_toList_eq_keys, List.map_map]
    refine List.map_congr_left fun entry hentry => ?_
    have hstored := Std.ExtTreeMap.mem_toList_iff_getElem?_eq_some.mp hentry
    show entry.2.balance.toNat = (w.account entry.1).balance.toNat
    rw [account, hstored, Option.getD_some]
  have habsent : ∀ a ∈ Finset.univ, a ∉ w.accounts.keys.toFinset →
      (w.view.balance a).toNat = 0 := by
    intro a _ ha
    rw [List.mem_toFinset, Std.ExtTreeMap.mem_keys] at ha
    show (w.account a).balance.toNat = 0
    rw [account, Std.ExtTreeMap.getElem?_eq_none ha]
    rfl
  have hsum : w.accounts.toList.foldl (fun exact entry => exact + entry.2.balance.toNat) 0 =
      (w.accounts.toList.map fun entry => entry.2.balance.toNat).sum := by
    rw [List.sum_eq_foldl, List.foldl_map]
  rw [hsum, hbalances, ← List.sum_toFinset _ Std.ExtTreeMap.nodup_keys]
  exact Finset.sum_subset (Finset.subset_univ _) habsent

/-- **The total of the stored accounts** is the sum of their balances, held at the largest
amount. -/
theorem toNat_totalBalance (w : World) :
    w.totalBalance.toNat = min w.view.total (2 ^ 256 - 1) := by
  rw [totalBalance, Std.ExtTreeMap.foldl_eq_foldl_toList,
    toNat_foldl_addSaturating _ _ 0 rfl, foldl_toList_eq_total]

end World

end MessageCalls

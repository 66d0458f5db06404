import Mathlib.Logic.Function.Basic
import MessageCalls.Proofs.Overlay.Closing
/-!
# MessageCalls.Proofs.Overlay.Readings

What every operation of an overlay does to its readings. All five readings walk the layers in the
same way, each with a key of its own, so the walk is treated once (`Overlay.find?_eq`) for any
reading of a change set.

**A write changes exactly the readings of its own key** (`Overlay.view_setBalance` and its
companions), a snapshot changes no reading, and closing the innermost snapshot changes none when it
is a commit (`Overlay.view_closeInnermost_commit`).
-/

namespace MessageCalls

/-! ### Writes to a full set of readings -/

namespace AccountView

/-- The readings once a balance was written; the account is present from then on. -/
def setBalance (v : AccountView) (a : Address) (x : Amount) : AccountView :=
  { v with
    balance := Function.update v.balance a x
    present := Function.update v.present a true }

/-- The readings once a nonce was written; the account is present from then on. -/
def setNonce (v : AccountView) (a : Address) (n : Nonce) : AccountView :=
  { v with
    nonce := Function.update v.nonce a n
    present := Function.update v.present a true }

/-- The readings once a code was written, its hash with it; the account is present from then
on. -/
def setCode (v : AccountView) (a : Address) (code : Bytes) : AccountView :=
  { v with
    code := Function.update v.code a code
    codeHash := Function.update v.codeHash a (Hash.Keccak.digest code)
    present := Function.update v.present a true }

/-- The readings once a storage slot was written. That alone brings no account into existence. -/
def setStorage (v : AccountView) (a : Address) (k w : Word) : AccountView :=
  { v with storage := Function.update v.storage a (Function.update (v.storage a) k w) }

end AccountView

namespace ChangeSet

/-- The accounts touched once one more entry was written to a map by address. -/
theorem contains_insert_address {α : Type} (m : Std.ExtTreeMap Address α) (a b : Address) (v : α) :
    (m.insert a v).contains b = (decide (b = a) || m.contains b) := by
  rw [Std.ExtTreeMap.contains_insert]
  congr 1
  rw [Bool.eq_iff_iff, beq_iff_eq, Std.LawfulEqCmp.compare_eq_iff_eq, decide_eq_true_iff, eq_comm]

theorem touches_merge (older newer : ChangeSet) (a : Address) :
    (older.merge newer).touches a = (older.touches a || newer.touches a) := by
  simp only [touches, merge, Std.ExtTreeMap.contains_union]
  ac_rfl

@[simp] theorem touches_empty (a : Address) : empty.touches a = false := rfl

end ChangeSet

namespace Overlay

variable {α : Type} (o : Overlay)

/-- The walk through the layers, innermost first. -/
theorem find?_eq (f : ChangeSet → Option α) :
    o.find? f = (f o.current).or (o.layers.findSome? fun l => f l.beneath) := by
  unfold find?
  cases f o.current <;> rfl

/-! ### Readings after a write -/

/-- An entry written to one map of the current layer is the first one that the walk for its key
meets, and the walk for any other key passes it by. -/
theorem find?_insert {κ : Type} [Ord κ] [Std.TransOrd κ] [Std.LawfulEqOrd κ] [DecidableEq κ]
    (map : ChangeSet → Std.ExtTreeMap κ α) {written : ChangeSet} {key : κ} {value : α}
    (h : map written = (map o.current).insert key value) (k : κ) :
    ({ o with current := written } : Overlay).find? (fun c => (map c)[k]?) =
      if k = key then some value else o.find? fun c => (map c)[k]? := by
  rw [find?_eq, find?_eq, h, Std.ExtTreeMap.getElem?_insert]
  simp only [Std.LawfulEqCmp.compare_eq_iff_eq, eq_comm (a := k)]
  split <;> rfl

/-- An account that a write touches is present, and every other one is as present as before. -/
theorem present_touch {written : ChangeSet} {a : Address}
    (h : ∀ b, written.touches b = (decide (b = a) || o.current.touches b)) :
    ({ o with current := written } : Overlay).present = Function.update o.present a true := by
  funext b
  rw [Function.update_apply, present, h]
  split
  · next hb => simp [hb]
  · next hb => simp [hb, present]

theorem view_setBalance (a : Address) (v : Amount) :
    (o.setBalance a v).view = o.view.setBalance a v := by
  have hbalance : (o.setBalance a v).balance = Function.update o.balance a v := by
    funext b
    rw [Function.update_apply, balance, setBalance, find?_insert o (·.balances) rfl]
    split <;> rfl
  have hpresent : (o.setBalance a v).present = Function.update o.present a true := by
    refine present_touch o fun b => ?_
    simp only [ChangeSet.touches, ChangeSet.contains_insert_address]
    ac_rfl
  simp only [view, AccountView.setBalance, hbalance, hpresent]
  rfl

theorem view_setNonce (a : Address) (n : Nonce) :
    (o.setNonce a n).view = o.view.setNonce a n := by
  have hnonce : (o.setNonce a n).nonce = Function.update o.nonce a n := by
    funext b
    rw [Function.update_apply, nonce, setNonce, find?_insert o (·.nonces) rfl]
    split <;> rfl
  have hpresent : (o.setNonce a n).present = Function.update o.present a true := by
    refine present_touch o fun b => ?_
    simp only [ChangeSet.touches, ChangeSet.contains_insert_address]
    ac_rfl
  simp only [view, AccountView.setNonce, hnonce, hpresent]
  rfl

theorem view_setCode (a : Address) (code : Bytes) :
    (o.setCode a code).view = o.view.setCode a code := by
  have hcode : (o.setCode a code).code = Function.update o.code a code := by
    funext b
    rw [Function.update_apply, Overlay.code, setCode, find?_insert o (·.codes) rfl]
    split <;> rfl
  have hhash : (o.setCode a code).codeHash =
      Function.update o.codeHash a (Hash.Keccak.digest code) := by
    funext b
    rw [Function.update_apply, codeHash, setCode, find?_insert o (·.codes) rfl]
    by_cases hb : b = a
    · rw [if_pos hb, if_pos hb]
    · rw [if_neg hb, if_neg hb]
      rfl
  have hpresent : (o.setCode a code).present = Function.update o.present a true := by
    refine present_touch o fun b => ?_
    simp only [ChangeSet.touches, ChangeSet.contains_insert_address]
    ac_rfl
  simp only [view, AccountView.setCode, hcode, hhash, hpresent]
  rfl

theorem view_setStorage (a : Address) (k w : Word) :
    (o.setStorage a k w).view = o.view.setStorage a k w := by
  have hstorage : (o.setStorage a k w).storage =
      Function.update o.storage a (Function.update (o.storage a) k w) := by
    funext b l
    rw [storage, setStorage, find?_insert o (·.storages) rfl]
    by_cases hb : b = a
    · subst hb
      rw [Function.update_self, Function.update_apply]
      by_cases hl : l = k
      · rw [if_pos (by rw [hl]), if_pos hl]
        rfl
      · rw [if_neg (fun h => hl (Slot.mk.inj h).2), if_neg hl]
        rfl
    · rw [if_neg (fun h => hb (Slot.mk.inj h).1), Function.update_of_ne hb]
      rfl
  simp only [view, AccountView.setStorage, hstorage]
  rfl

/-! ### Readings after a snapshot and after its end -/

/-- Overlays over the same stored state whose walks give the same have the same readings. -/
theorem view_congr {o p : Overlay} (stored : p.stored = o.stored)
    (balances : ∀ a : Address, p.find? (·.balances[a]?) = o.find? (·.balances[a]?))
    (nonces : ∀ a : Address, p.find? (·.nonces[a]?) = o.find? (·.nonces[a]?))
    (codes : ∀ a : Address, p.find? (·.codes[a]?) = o.find? (·.codes[a]?))
    (storages : ∀ s : Slot, p.find? (·.storages[s]?) = o.find? (·.storages[s]?))
    (present : p.present = o.present) : p.view = o.view := by
  refine AccountView.ext (fun a => ?_) (fun a => ?_) (fun a => ?_) (fun a => ?_) (fun a k => ?_)
    fun a => congrFun present a
  · show p.balance a = o.balance a
    rw [balance, balance, balances, stored]
  · show p.nonce a = o.nonce a
    rw [nonce, nonce, nonces, stored]
  · show p.code a = o.code a
    rw [Overlay.code, Overlay.code, codes, stored]
  · show p.codeHash a = o.codeHash a
    rw [codeHash, codeHash, codes, stored]
  · show p.storage a k = o.storage a k
    rw [storage, storage, storages, stored]

/-- A snapshot changes no walk: the layer it starts is empty. -/
theorem find?_snapshot {f : ChangeSet → Option α} (hf : f .empty = none) :
    o.snapshot.2.find? f = o.find? f := by
  rw [find?_eq, find?_eq, snapshot, List.findSome?_cons, hf, Option.none_or]
  cases f o.current <;> rfl

/-- Nor does it change a reading. -/
theorem view_snapshot : o.snapshot.2.view = o.view := by
  have hpresent : o.snapshot.2.present = o.present := by
    funext a
    simp [present, snapshot]
  exact view_congr rfl (fun _ => find?_snapshot o rfl) (fun _ => find?_snapshot o rfl)
    (fun _ => find?_snapshot o rfl) (fun _ => find?_snapshot o rfl) hpresent

/-- Closing the innermost snapshot by a commit changes no walk: the merged layer answers as the two
layers did one after the other. -/
theorem find?_closeInnermost_commit {f : ChangeSet → Option α}
    (hf : ∀ older newer, f (older.merge newer) = (f newer).or (f older)) :
    (o.closeInnermost .commit).find? f = o.find? f := by
  cases hl : o.layers with
  | nil => rw [closeInnermost, hl]
  | cons l rest =>
      rw [closeInnermost_cons hl .commit, find?_eq, find?_eq, hf, hl, List.findSome?_cons]
      cases f o.current <;> cases f l.beneath <;> rfl

theorem find?_closeMany_commit {f : ChangeSet → Option α}
    (hf : ∀ older newer, f (older.merge newer) = (f newer).or (f older)) (count : Nat) :
    (o.closeMany .commit count).find? f = o.find? f := by
  induction count generalizing o with
  | zero => rfl
  | succ count ih => rw [closeMany, ih, find?_closeInnermost_commit o hf]

/-- Nor does it change a reading. -/
theorem view_closeInnermost_commit : (o.closeInnermost .commit).view = o.view := by
  cases hl : o.layers with
  | nil => rw [closeInnermost, hl]
  | cons l rest =>
      have hclose := closeInnermost_cons hl .commit
      have hpresent : (o.closeInnermost .commit).present = o.present := by
        funext a
        rw [present, present, hclose, hl, ChangeSet.touches_merge, List.any_cons]
        ac_rfl
      exact view_congr (by rw [hclose])
        (fun a => find?_closeInnermost_commit o (ChangeSet.getElem?_balances_merge · · a))
        (fun a => find?_closeInnermost_commit o (ChangeSet.getElem?_nonces_merge · · a))
        (fun a => find?_closeInnermost_commit o (ChangeSet.getElem?_codes_merge · · a))
        (fun slot => find?_closeInnermost_commit o (ChangeSet.getElem?_storages_merge · · slot))
        hpresent

theorem view_closeMany_commit (count : Nat) : (o.closeMany .commit count).view = o.view := by
  induction count generalizing o with
  | zero => rfl
  | succ count ih => rw [closeMany, ih, view_closeInnermost_commit]

/-- **An account that pays itself keeps its balance**, and so do the others. -/
theorem balance_transfer_self {o p : Overlay} {t : Transfer} (hself : t.source = t.target)
    (h : o.transfer t = (.ok (), p)) : p.balance = o.balance := by
  obtain ⟨source, target, value⟩ := t
  obtain rfl : source = target := hself
  unfold transfer at h
  by_cases hshort : o.balance source < value
  · rw [if_pos hshort] at h
    cases h
  · rw [if_neg hshort] at h
    have hdebited : (o.setBalance source (o.balance source - value)).balance =
        Function.update o.balance source (o.balance source - value) :=
      congrArg AccountView.balance (view_setBalance o source _)
    dsimp only at h
    rw [hdebited, Function.update_self] at h
    split at h
    · cases h
    · next credit hcredit =>
        cases h
        have hcredited : credit = o.balance source := by
          have hadded := Amount.add?_eq_some_iff.mp hcredit
          have henough : value.toNat ≤ (o.balance source).toNat := by
            simpa [BitVec.lt_def] using hshort
          rw [BitVec.toNat_sub_of_le henough, Nat.sub_add_cancel henough] at hadded
          exact BitVec.eq_of_toNat_eq hadded
        have hpaid := congrArg AccountView.balance
          (view_setBalance (o.setBalance source (o.balance source - value)) source credit)
        refine hpaid.trans ?_
        show Function.update (Overlay.balance _) source credit = _
        rw [hdebited, Function.update_idem, hcredited, Function.update_eq_self]

end Overlay

end MessageCalls

import MessageCalls.Proofs.Account.Keys
import MessageCalls.Proofs.World.Existence
/-!
# MessageCalls.Proofs.World.Merging

**Change sets may be applied one after the other or merged first** (`World.apply_apply`): both leave
the same accounts with the same slots. An account is determined by what it holds and by whether it
exists (`World.eq_of_readings`), and each of these is known of an applied change set.

So the laws of merging are laws of applying (`World.composes_apply`), although writing zero to a slot
removes the slot and yet brings its account into existence.
-/

namespace MessageCalls

namespace ChangeSet

theorem namesSlot_merge (older newer : ChangeSet) (a : Address) :
    (older.merge newer).NamesSlot a ↔ older.NamesSlot a ∨ newer.NamesSlot a := by
  unfold NamesSlot
  rw [← exists_or]
  refine exists_congr fun k => ?_
  rw [getElem?_storages_merge]
  cases newer.storages[Slot.mk a k]? <;> simp

end ChangeSet

namespace World

variable {w w' : World}

/-- Accounts are the same if they hold the same. -/
theorem account_eq {x y : Account} (hbalance : x.balance = y.balance) (hnonce : x.nonce = y.nonce)
    (hcode : x.code = y.code) (hstorage : ∀ k : Word, x.storage[k]? = y.storage[k]?) : x = y := by
  obtain ⟨nonce, balance, storage, code⟩ := x
  obtain ⟨nonce', balance', storage', code'⟩ := y
  obtain rfl : balance = balance' := hbalance
  obtain rfl : nonce = nonce' := hnonce
  obtain rfl : code = code' := hcode
  obtain rfl : storage = storage' := Std.ExtTreeMap.ext_getElem? hstorage
  rfl

/-- Stored accounts are the same if the same accounts exist and hold the same. -/
theorem eq_of_readings (hpresent : ∀ a, w.view.present a = w'.view.present a)
    (hbalance : ∀ a, w.view.balance a = w'.view.balance a)
    (hnonce : ∀ a, w.view.nonce a = w'.view.nonce a) (hcode : ∀ a, w.view.code a = w'.view.code a)
    (hstorage : ∀ (a : Address) (k : Word),
      (w.account a).storage[k]? = (w'.account a).storage[k]?) : w = w' := by
  have haccount : ∀ a, w.account a = w'.account a := fun a =>
    account_eq (hbalance a) (hnonce a) (hcode a) (hstorage a)
  obtain ⟨accounts⟩ := w
  obtain ⟨accounts'⟩ := w'
  refine congrArg World.mk (Std.ExtTreeMap.ext_getElem? fun a => ?_)
  have hcontains : accounts.contains a = accounts'.contains a := hpresent a
  have hholds : accounts[a]?.getD .empty = accounts'[a]?.getD .empty := haccount a
  rw [Std.ExtTreeMap.contains_eq_isSome_getElem?,
    Std.ExtTreeMap.contains_eq_isSome_getElem?] at hcontains
  cases hx : accounts[a]? with
  | none =>
      rw [hx, Option.isSome_none] at hcontains
      exact (Option.isSome_eq_false_iff.mp hcontains.symm |> Option.isNone_iff_eq_none.mp).symm
  | some x =>
      rw [hx, Option.isSome_some] at hcontains
      obtain ⟨y, hy⟩ := Option.isSome_iff_exists.mp hcontains.symm
      rw [hx, hy] at hholds
      rw [hy]
      exact congrArg some hholds

/-- **Change sets may be applied one after the other or merged first.** -/
theorem apply_apply (w : World) (c d : ChangeSet) :
    (w.apply c).apply d = w.apply (c.merge d) := by
  refine eq_of_readings (fun a => ?_) (fun a => ?_) (fun a => ?_) (fun a => ?_) fun a k => ?_
  · rw [Bool.eq_iff_iff]
    simp only [present_apply, ChangeSet.touches_merge, ChangeSet.namesSlot_merge, Bool.or_eq_true]
    grind
  · simp only [balance_apply, ChangeSet.getElem?_balances_merge, Option.getD_or]
  · simp only [nonce_apply, ChangeSet.getElem?_nonces_merge, Option.getD_or]
  · simp only [code_apply, ChangeSet.getElem?_codes_merge, Option.getD_or]
  · rw [getElem?_storage_apply, getElem?_storage_apply, getElem?_storage_apply,
      ChangeSet.getElem?_storages_merge]
    cases d.storages[Slot.mk a k]? <;> rfl

/-- Applying nothing changes nothing. -/
theorem apply_empty (w : World) : w.apply .empty = w := by
  refine eq_of_readings (fun a => ?_) (balance_apply w .empty) (nonce_apply w .empty)
    (code_apply w .empty) (getElem?_storage_apply w .empty)
  rw [Bool.eq_iff_iff, present_apply, ChangeSet.touches_empty]
  simp [ChangeSet.NamesSlot, ChangeSet.empty]

/-- Any number of change sets may be merged before they are applied. -/
theorem foldl_apply (w : World) (cs : List ChangeSet) (c : ChangeSet) :
    cs.foldl apply (w.apply c) = w.apply (cs.foldl ChangeSet.merge c) := by
  induction cs generalizing c with
  | nil => rfl
  | cons d cs ih => rw [List.foldl_cons, List.foldl_cons, apply_apply, ih]

/-- What it comes to that change sets are applied one after the other. -/
structure Composes (w : World) (c d : ChangeSet) : Prop where
  /-- Of two change sets merged the entries of the second one win. -/
  newer : ∀ k, (c.merge d).get? k = (d.get? k).or (c.get? k)
  /-- Applying both is applying the merged one. -/
  merged : (w.apply c).apply d = w.apply (c.merge d)
  /-- So it is with any number of them. -/
  several : ∀ cs : List ChangeSet, cs.foldl apply w = w.apply (cs.foldl ChangeSet.merge .empty)
  /-- Applying a change set a second time changes nothing. -/
  again : (w.apply c).apply c = w.apply c
  /-- Change sets that share no key may be applied in either order. -/
  eitherOrder : c.Apart d → (w.apply c).apply d = (w.apply d).apply c

/-- **Applying change sets composes**: the accounts that exist, what they hold and the slots they have
are those of one merged change set. -/
theorem composes_apply (w : World) (c d : ChangeSet) : Composes w c d := by
  constructor
  case newer => exact ChangeSet.get?_merge c d
  case merged => exact apply_apply w c d
  case several =>
    intro cs
    have hall := foldl_apply w cs .empty
    rwa [apply_empty] at hall
  case again => rw [apply_apply, ChangeSet.merge_self]
  case eitherOrder =>
    intro hapart
    rw [apply_apply, apply_apply, hapart.merge_comm]

/-- Of an account that is absent at first one slot is set and then cleared, another one cleared and
then set. -/
example :
    let first : ChangeSet :=
      { storages := (∅ : Std.ExtTreeMap Slot Word).insert ⟨1, 1⟩ 5 |>.insert ⟨1, 2⟩ 0 }
    let second : ChangeSet :=
      { storages := (∅ : Std.ExtTreeMap Slot Word).insert ⟨1, 1⟩ 0 |>.insert ⟨1, 2⟩ 6 }
    let w := ({} : World).apply first |>.apply second
    w.view.present 1 = true ∧
      [1, 2].map (fun k => (w.account 1).storage[(k : Word)]?) = [none, some 6] := by
  decide +kernel

end World

end MessageCalls

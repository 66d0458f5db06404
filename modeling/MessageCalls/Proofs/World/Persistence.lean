import MessageCalls.Proofs.World.Applying
/-!
# MessageCalls.Proofs.World.Persistence

**What was read last is what is stored** (`World.persisted_apply_finish`). A pending reading comes
from a walk through the layers, a stored one from four maps that were merged and written account by
account; both give the same for every account and every slot, whatever snapshots were still open.
What the change set does not name stays as it was, and no slot is left holding zero.
-/

namespace MessageCalls

/-- No balance, nonce, code or slot of the account is named. -/
def ChangeSet.Omits (c : ChangeSet) (a : Address) : Prop :=
  c.touches a = false ∧ ∀ k, c.storages[Slot.mk a k]? = none

namespace World

variable {w : World} {o : Overlay} {c : ChangeSet} {a : Address} {k : Word}

/-- No slot of an account holds zero, which an empty slot reads as. -/
def ZeroFree (w : World) : Prop := ∀ (a : Address) (k : Word), (w.account a).storage[k]? ≠ some 0

/-! ### Storage slots -/

theorem getElem?_store (x : Account) (key value k : Word) :
    (x.store key value).storage[k]? =
      if k = key then (if value = 0 then none else some value) else x.storage[k]? := by
  unfold Account.store
  by_cases hzero : value = 0
  · simp only [hzero, if_true, Std.ExtTreeMap.getElem?_erase, Std.LawfulEqCmp.compare_eq_iff_eq,
      eq_comm (a := k)]
  · simp only [hzero, if_false, Std.ExtTreeMap.getElem?_insert, Std.LawfulEqCmp.compare_eq_iff_eq,
      eq_comm (a := k)]

section List

variable {entries : List (Slot × Word)}

theorem storage_foldl_store_of_not_mem (h : ∀ v, (⟨a, k⟩, v) ∉ entries) (w : World) :
    ((entries.foldl (fun w entry => w.update entry.1.account fun x => x.store entry.1.key entry.2)
      w).account a).storage[k]? = (w.account a).storage[k]? := by
  induction entries generalizing w with
  | nil => rfl
  | cons entry entries ih =>
      have hrest : ∀ v, (⟨a, k⟩, v) ∉ entries := fun v hv => h v (List.mem_cons_of_mem _ hv)
      rw [List.foldl_cons, ih hrest, account_update]
      split
      · next ha =>
          have hother : k ≠ entry.1.key := by
            rintro rfl
            subst ha
            exact h entry.2 List.mem_cons_self
          rw [getElem?_store, if_neg hother, ha]
      · rfl

theorem storage_foldl_store_of_mem (hdistinct : entries.Pairwise fun x y => x.1 ≠ y.1) {v : Word}
    (h : (⟨a, k⟩, v) ∈ entries) (w : World) :
    ((entries.foldl (fun w entry => w.update entry.1.account fun x => x.store entry.1.key entry.2)
      w).account a).storage[k]? = if v = 0 then none else some v := by
  induction entries generalizing w with
  | nil => cases h
  | cons entry entries ih =>
      obtain ⟨hfirst, hrest⟩ := List.pairwise_cons.mp hdistinct
      rw [List.foldl_cons]
      rcases List.mem_cons.mp h with rfl | hmem
      · -- The slot is named here, so nothing later in the list writes it again.
        have hlater : ∀ v', (⟨a, k⟩, v') ∉ entries := fun v' hv' => hfirst _ hv' rfl
        rw [storage_foldl_store_of_not_mem hlater, account_update, if_pos rfl, getElem?_store,
          if_pos rfl]
      · exact ih hrest hmem _

end List

/-- **Writing the slots of a change set**: zero removes a slot. -/
theorem storage_foldl_store (m : Std.ExtTreeMap Slot Word) (w : World) (a : Address) (k : Word) :
    ((m.foldl (fun w slot v => w.update slot.account fun x => x.store slot.key v) w).account
      a).storage[k]? =
      match m[Slot.mk a k]? with
      | some v => if v = 0 then none else some v
      | none => (w.account a).storage[k]? := by
  rw [Std.ExtTreeMap.foldl_eq_foldl_toList]
  have hdistinct : m.toList.Pairwise fun x y => x.1 ≠ y.1 := by
    refine Std.ExtTreeMap.distinct_keys_toList.imp fun hne hsame => hne ?_
    rw [hsame]
    exact Std.ReflCmp.compare_self
  cases hm : m[Slot.mk a k]? with
  | some v =>
      exact storage_foldl_store_of_mem hdistinct
        (Std.ExtTreeMap.mem_toList_iff_getElem?_eq_some.mpr hm) w
  | none =>
      refine storage_foldl_store_of_not_mem (fun v hv => ?_) w
      rw [Std.ExtTreeMap.mem_toList_iff_getElem?_eq_some.mp hv] at hm
      cases hm

/-! ### The accounts and slots that a change set names -/

/-- The maps of balances, nonces and codes are written before any slot is. -/
theorem getElem?_storage_apply (w : World) (c : ChangeSet) (a : Address) (k : Word) :
    ((w.apply c).account a).storage[k]? =
      match c.storages[Slot.mk a k]? with
      | some v => if v = 0 then none else some v
      | none => (w.account a).storage[k]? := by
  unfold apply
  dsimp only
  rw [storage_foldl_store, account_foldl_update, account_foldl_update, account_foldl_update]
  cases c.balances[a]? <;> cases c.nonces[a]? <;> cases c.codes[a]? <;> rfl

theorem storage_apply (w : World) (c : ChangeSet) (a : Address) (k : Word) :
    (w.apply c).view.storage a k = (c.storages[Slot.mk a k]?).getD (w.view.storage a k) := by
  show ((w.apply c).account a).storage[k]?.getD 0 = _
  rw [getElem?_storage_apply]
  cases c.storages[Slot.mk a k]? with
  | none => rfl
  | some v =>
      dsimp only
      split
      · next hzero => rw [hzero]; rfl
      · rfl

/-- An account without a slot in the map is not even created by writing slots. -/
theorem getElem?_foldl_store_of_omits {m : Std.ExtTreeMap Slot Word}
    (h : ∀ k, m[Slot.mk a k]? = none) (w : World) :
    (m.foldl (fun w slot v => w.update slot.account fun x => x.store slot.key v) w).accounts[a]? =
      w.accounts[a]? := by
  have hnone : ∀ entry ∈ m.toList, entry.1.account ≠ a := by
    rintro ⟨slot, v⟩ hmem rfl
    have hfound := Std.ExtTreeMap.mem_toList_iff_getElem?_eq_some.mp hmem
    rw [h slot.key] at hfound
    cases hfound
  rw [Std.ExtTreeMap.foldl_eq_foldl_toList]
  generalize m.toList = entries at hnone
  induction entries generalizing w with
  | nil => rfl
  | cons entry entries ih =>
      obtain ⟨hfirst, hrest⟩ := List.forall_mem_cons.mp hnone
      rw [List.foldl_cons, ih _ hrest, getElem?_update, if_neg (Ne.symm hfirst)]

/-- **An account that the change set omits is as before**, absent if it was. -/
theorem getElem?_apply_of_omits (h : c.Omits a) (w : World) :
    (w.apply c).accounts[a]? = w.accounts[a]? := by
  obtain ⟨htouched, hslots⟩ := h
  simp only [ChangeSet.touches, Bool.or_eq_false_iff, Std.ExtTreeMap.contains_eq_isSome_getElem?,
    Option.isSome_eq_false_iff, Option.isNone_iff_eq_none] at htouched
  obtain ⟨⟨hbalance, hnonce⟩, hcode⟩ := htouched
  unfold apply
  dsimp only
  rw [getElem?_foldl_store_of_omits hslots, getElem?_foldl_update, hcode, getElem?_foldl_update,
    hnonce, getElem?_foldl_update, hbalance]

theorem ZeroFree.apply (h : w.ZeroFree) (c : ChangeSet) : (w.apply c).ZeroFree := by
  intro a k
  rw [getElem?_storage_apply]
  split
  · split
    · simp
    · next hzero => exact fun hstored => hzero (Option.some.inj hstored)
  · exact h a k

/-! ### The change set of a finished overlay -/

/-- What an account holds once the change set of an overlay over it has been applied. -/
structure Persisted (w : World) (o : Overlay) (w' : World) : Prop where
  balance : ∀ a, w'.view.balance a = o.balance a
  nonce : ∀ a, w'.view.nonce a = o.nonce a
  code : ∀ a, w'.view.code a = o.code a
  codeHash : ∀ a, w'.view.codeHash a = o.codeHash a
  storage : ∀ a k, w'.view.storage a k = o.storage a k
  /-- Accounts that the change set omits are exactly as before. -/
  omitted : ∀ a, o.finish.Omits a → w'.accounts[a]? = w.accounts[a]?
  /-- So are slots that it omits, also those of accounts that it names. -/
  slot_omitted : ∀ a k, o.finish.storages[Slot.mk a k]? = none →
    (w'.account a).storage[k]? = (w.account a).storage[k]?
  zeroFree : w.ZeroFree → w'.ZeroFree

/-- The hash of a code is read where the code is. -/
theorem codeHash_eq_digest (hstored : o.stored = w.view) (a : Address) :
    o.codeHash a = Hash.Keccak.digest (o.code a) := by
  unfold Overlay.codeHash Overlay.code
  cases o.find? (·.codes[a]?) with
  | some code => rfl
  | none => rw [hstored]; rfl

theorem codeHash_apply_finish (hstored : o.stored = w.view) (a : Address) :
    (w.apply o.finish).view.codeHash a = o.codeHash a := by
  rw [codeHash_eq_digest hstored, ← code_apply_finish hstored]
  rfl

theorem storage_apply_finish (hstored : o.stored = w.view) (a : Address) (k : Word) :
    (w.apply o.finish).view.storage a k = o.storage a k := by
  rw [storage_apply, Overlay.storage, find?_eq_finish o (ChangeSet.getElem?_storages_merge · · _),
    hstored]

/-- **The readings of an overlay are those of the accounts that its change set is applied to**,
whatever was written and whatever snapshots are open. -/
theorem persisted_apply_finish (w : World) (o : Overlay) (hstored : o.stored = w.view) :
    Persisted w o (w.apply o.finish) := by
  refine ⟨balance_apply_finish hstored, nonce_apply_finish hstored, code_apply_finish hstored,
    codeHash_apply_finish hstored, storage_apply_finish hstored,
    fun a h => getElem?_apply_of_omits h w, fun a k h => ?_, fun h => h.apply o.finish⟩
  rw [getElem?_storage_apply, h]

/-- Two snapshots are open: beneath them a slot was cleared and a balance written, between them a
slot of an absent account was written, and above them a code. -/
theorem persisted_under_open_snapshots :
    let w : World :=
      ⟨(∅ : Std.ExtTreeMap Address Account).insert 1
        { balance := 7, storage := (∅ : Storage).insert 2 9 |>.insert 3 8 }⟩
    let beneath := (({ stored := w.view } : Overlay).setStorage 1 2 0).setBalance 4 5
    let between := beneath.snapshot.2.setStorage 6 1 1
    let o := between.snapshot.2.setCode 1 [3]
    o.stored = w.view ∧ o.openSnapshots = 2 ∧ w.ZeroFree ∧ Persisted w o (w.apply o.finish) ∧
      [2, 3].map (fun k => ((w.apply o.finish).account 1).storage[(k : Word)]?) =
        [none, some 8] := by
  intro w beneath between o
  have hzero : w.ZeroFree := by
    intro a k
    have haccount : w.account a = (w.accounts[a]?).getD .empty := rfl
    rw [haccount, Std.ExtTreeMap.getElem?_insert]
    split
    · simp only [Option.getD_some, Std.ExtTreeMap.getElem?_insert]
      split
      · decide
      · split
        · decide
        · simp
    · simp [Account.empty]
  exact ⟨rfl, rfl, hzero, persisted_apply_finish w o rfl, by decide +kernel⟩

end World

end MessageCalls

import MessageCalls.Proofs.World.Persistence
/-!
# MessageCalls.Proofs.World.Existence

Which accounts exist once pending writes have been applied. A pending account exists when it is
stored or a balance, a nonce or a code of it was written; a stored one exists when anything of it
was ever written, a storage slot included. **The two agree on every account but one that only slots
were written of** (`World.existing_apply_finish`): no account is dropped, and what is brought into
existence is an account that reads as empty but for its slots, also where zero was written to them
(`World.brought_by_cleared_slot`).
-/

namespace MessageCalls

/-- A storage slot of the account is named. -/
def ChangeSet.NamesSlot (c : ChangeSet) (a : Address) : Prop :=
  ∃ k, c.storages[Slot.mk a k]? ≠ none

/-- A write to a storage slot of the account is pending. -/
def Overlay.WritesSlot (o : Overlay) (a : Address) : Prop :=
  ∃ k, o.find? (·.storages[Slot.mk a k]?) ≠ none

namespace World

variable {w : World} {o : Overlay} {c : ChangeSet} {a : Address}

/-! ### The accounts that a change set leaves -/

theorem contains_update (w : World) (a b : Address) (f : Account → Account) :
    (w.update b f).accounts.contains a = (decide (a = b) || w.accounts.contains a) :=
  ChangeSet.contains_insert_address w.accounts b a _

theorem contains_foldl_update {α : Type} (m : Std.ExtTreeMap Address α) (f : α → Account → Account)
    (w : World) (a : Address) :
    (m.foldl (fun w b v => w.update b (f v)) w).accounts.contains a =
      (m.contains a || w.accounts.contains a) := by
  simp only [Std.ExtTreeMap.contains_eq_isSome_getElem?, getElem?_foldl_update]
  cases m[a]? <;> rfl

/-- Writing a slot puts its account there, whatever word is written. -/
theorem contains_foldl_store (m : Std.ExtTreeMap Slot Word) (w : World) (a : Address) :
    (m.foldl (fun w slot v => w.update slot.account fun x => x.store slot.key v) w).accounts.contains
      a = true ↔ (∃ k, m[Slot.mk a k]? ≠ none) ∨ w.accounts.contains a = true := by
  have hnamed : (∃ k, m[Slot.mk a k]? ≠ none) ↔ ∃ entry ∈ m.toList, entry.1.account = a := by
    constructor
    · rintro ⟨k, hk⟩
      obtain ⟨v, hv⟩ := Option.ne_none_iff_exists'.mp hk
      exact ⟨_, Std.ExtTreeMap.mem_toList_iff_getElem?_eq_some.mpr hv, rfl⟩
    · rintro ⟨⟨slot, v⟩, hmem, rfl⟩
      refine ⟨slot.key, ?_⟩
      rw [Std.ExtTreeMap.mem_toList_iff_getElem?_eq_some.mp hmem]
      exact Option.some_ne_none v
  rw [hnamed, Std.ExtTreeMap.foldl_eq_foldl_toList]
  generalize m.toList = entries
  induction entries generalizing w with
  | nil => simp
  | cons entry entries ih =>
      rw [List.foldl_cons]
      refine (ih _).trans ?_
      rw [contains_update]
      simp only [Bool.or_eq_true, decide_eq_true_eq, List.mem_cons, exists_eq_or_imp,
        eq_comm (a := a), or_assoc, or_left_comm]

/-- **The accounts that exist once a change set has been applied.** -/
theorem present_apply (w : World) (c : ChangeSet) (a : Address) :
    (w.apply c).view.present a = true ↔
      c.touches a = true ∨ c.NamesSlot a ∨ w.view.present a = true := by
  show (w.apply c).accounts.contains a = true ↔ _ ∨ _ ∨ w.accounts.contains a = true
  unfold apply
  dsimp only
  rw [contains_foldl_store, contains_foldl_update, contains_foldl_update, contains_foldl_update]
  simp only [ChangeSet.touches, ChangeSet.NamesSlot, Bool.or_eq_true]
  grind

/-! ### The change set of a finished overlay -/

theorem present_eq_touches (hstored : o.stored = w.view) (a : Address) :
    o.present a = (o.finish.touches a || w.view.present a) := by
  have hview := Overlay.view_closeMany_commit o o.layers.length
  have hbeneath : (o.closeMany .commit o.layers.length).stored = w.view :=
    (Overlay.stored_closeMany ..).trans hstored
  have hpresent : (o.closeMany .commit o.layers.length).present a = o.present a :=
    congrFun (congrArg AccountView.present hview) a
  rw [← hpresent, Overlay.present, layers_closeMany_all, hbeneath, List.any_nil, Bool.or_false]
  rfl

theorem namesSlot_finish (o : Overlay) (a : Address) : o.finish.NamesSlot a ↔ o.WritesSlot a := by
  refine exists_congr fun k => ?_
  rw [find?_eq_finish o (ChangeSet.getElem?_storages_merge · · _)]

/-- A pending account that does not exist reads as an empty one, but for its slots. -/
theorem readings_of_absent (hstored : o.stored = w.view) (habsent : o.present a = false) :
    o.balance a = 0 ∧ o.nonce a = 0 ∧ o.code a = [] := by
  rw [present_eq_touches hstored, Bool.or_eq_false_iff] at habsent
  obtain ⟨htouches, hnever⟩ := habsent
  simp only [ChangeSet.touches, Bool.or_eq_false_iff, Std.ExtTreeMap.contains_eq_isSome_getElem?,
    Option.isSome_eq_false_iff, Option.isNone_iff_eq_none] at htouches
  obtain ⟨⟨hbalance, hnonce⟩, hcode⟩ := htouches
  have hempty : w.account a = .empty := by
    have hnone : w.accounts[a]? = none := by
      rwa [← Option.isNone_iff_eq_none, ← Option.isSome_eq_false_iff,
        ← Std.ExtTreeMap.contains_eq_isSome_getElem?]
    rw [account, hnone, Option.getD_none]
  refine ⟨?_, ?_, ?_⟩
  · rw [Overlay.balance, find?_eq_finish o (ChangeSet.getElem?_balances_merge · · a), hbalance,
      hstored]
    exact congrArg Account.balance hempty
  · rw [Overlay.nonce, find?_eq_finish o (ChangeSet.getElem?_nonces_merge · · a), hnonce, hstored]
    exact congrArg Account.nonce hempty
  · rw [Overlay.code, find?_eq_finish o (ChangeSet.getElem?_codes_merge · · a), hcode, hstored]
    exact congrArg Account.code hempty

/-- **An account exists once the pending writes have been applied** if it existed before, or a write
to one of its slots was pending. -/
theorem present_apply_finish (hstored : o.stored = w.view) (a : Address) :
    (w.apply o.finish).view.present a = true ↔ o.present a = true ∨ o.WritesSlot a := by
  rw [present_apply, namesSlot_finish, present_eq_touches hstored, Bool.or_eq_true]
  grind

/-! ### Existence before and after -/

/-- How the accounts that exist in `w'` compare with those that exist in an overlay. -/
structure Existing (o : Overlay) (w' : World) : Prop where
  /-- No account is dropped. -/
  kept : ∀ a, o.present a = true → w'.view.present a = true
  /-- Existence persists exactly where an account existed or no write to a slot of it is pending. -/
  persists : ∀ a, w'.view.present a = o.present a ↔ o.present a = true ∨ ¬ o.WritesSlot a
  /-- What is brought into existence is empty but for its slots. -/
  brought : ∀ a, o.present a = false → w'.view.present a = true →
    o.WritesSlot a ∧ w'.view.balance a = 0 ∧ w'.view.nonce a = 0 ∧ w'.view.code a = []

/-- **Applying the pending writes drops no account, and brings into existence those of which only
slots were written**, whatever snapshots are open. -/
theorem existing_apply_finish (w : World) (o : Overlay) (hstored : o.stored = w.view) :
    Existing o (w.apply o.finish) := by
  have hpresent := fun a => present_apply_finish hstored a
  refine ⟨fun a h => (hpresent a).mpr (Or.inl h), fun a => ?_, fun a habsent h => ?_⟩
  · rw [Bool.eq_iff_iff, hpresent]
    grind
  · have hwrites : o.WritesSlot a := by
      rcases (hpresent a).mp h with hbefore | hwrites
      · rw [habsent] at hbefore
        cases hbefore
      · exact hwrites
    obtain ⟨hbalance, hnonce, hcode⟩ := readings_of_absent hstored habsent
    exact ⟨hwrites, (balance_apply_finish hstored a).trans hbalance,
      (nonce_apply_finish hstored a).trans hnonce, (code_apply_finish hstored a).trans hcode⟩

/-- Two snapshots are open. Beneath them a slot of an absent account was written, and a balance of
another one; above them a slot of that other account and one of a stored account. -/
theorem existing_under_open_snapshots :
    let w : World := ⟨(∅ : Std.ExtTreeMap Address Account).insert 1 { balance := 7 }⟩
    let beneath := (({ stored := w.view } : Overlay).setStorage 6 2 9).setBalance 4 5
    let o := (beneath.snapshot.2.setStorage 4 1 1).snapshot.2.setStorage 1 1 0
    o.stored = w.view ∧ o.openSnapshots = 2 ∧
      [1, 4, 6, 8].map o.present = [true, true, false, false] ∧
      [1, 4, 6, 8].map (w.apply o.finish).view.present = [true, true, true, false] ∧
      Existing o (w.apply o.finish) := by
  intro w beneath o
  exact ⟨rfl, rfl, by decide +kernel, by decide +kernel, existing_apply_finish w o rfl⟩

/-- Zero is written to a slot of an absent account. The account does not exist before the write is
applied, and exists after it, with no slot and no balance. -/
theorem brought_by_cleared_slot :
    let w : World := {}
    let o := ({ stored := w.view } : Overlay).setStorage 5 1 0
    o.present 5 = false ∧ (w.apply o.finish).view.present 5 = true ∧
      ((w.apply o.finish).account 5).storage.isEmpty = true ∧
      ((w.apply o.finish).account 5).balance = 0 := by
  decide +kernel

end World

end MessageCalls

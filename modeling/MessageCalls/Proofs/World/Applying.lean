import MessageCalls.Account.World
import MessageCalls.Proofs.Overlay.Readings
/-!
# MessageCalls.Proofs.World.Applying

What stored accounts become when a change set is applied to them. Balances, nonces and codes are
written one account after another, each account at most once, so **an account that a map of the
change set names is written as the map says, and no other is** (`World.getElem?_foldl_update`).
-/

namespace MessageCalls.World

variable {α : Type} {w : World} {a : Address}

theorem getElem?_update (w : World) (a b : Address) (f : Account → Account) :
    (w.update b f).accounts[a]? = if a = b then some (f (w.account b)) else w.accounts[a]? := by
  rw [update, Std.ExtTreeMap.getElem?_insert]
  simp only [Std.LawfulEqCmp.compare_eq_iff_eq, eq_comm (a := a)]

theorem account_update (w : World) (a b : Address) (f : Account → Account) :
    (w.update b f).account a = if a = b then f (w.account b) else w.account a := by
  rw [account, getElem?_update]
  split <;> rfl

/-! ### One map of a change set -/

section List

variable {f : α → Account → Account} {entries : List (Address × α)}

theorem getElem?_foldl_update_of_not_mem (h : ∀ v, (a, v) ∉ entries) (w : World) :
    (entries.foldl (fun w entry => w.update entry.1 (f entry.2)) w).accounts[a]? =
      w.accounts[a]? := by
  induction entries generalizing w with
  | nil => rfl
  | cons entry entries ih =>
      have hother : a ≠ entry.1 := by
        rintro rfl
        exact h entry.2 List.mem_cons_self
      have hrest : ∀ v, (a, v) ∉ entries := fun v hv => h v (List.mem_cons_of_mem _ hv)
      rw [List.foldl_cons, ih hrest, getElem?_update, if_neg hother]

theorem getElem?_foldl_update_of_mem (hdistinct : entries.Pairwise fun x y => x.1 ≠ y.1) {v : α}
    (h : (a, v) ∈ entries) (w : World) :
    (entries.foldl (fun w entry => w.update entry.1 (f entry.2)) w).accounts[a]? =
      some (f v (w.account a)) := by
  induction entries generalizing w with
  | nil => cases h
  | cons entry entries ih =>
      obtain ⟨hfirst, hrest⟩ := List.pairwise_cons.mp hdistinct
      rw [List.foldl_cons]
      rcases List.mem_cons.mp h with rfl | hmem
      · -- The account is named here, so nothing later in the list writes it again.
        have hlater : ∀ v', (a, v') ∉ entries := fun v' hv' => hfirst _ hv' rfl
        rw [getElem?_foldl_update_of_not_mem hlater, getElem?_update, if_pos rfl]
      · have hother : a ≠ entry.1 := fun hsame => hfirst _ hmem hsame.symm
        rw [ih hrest hmem, account_update, if_neg hother]

end List

/-- **Writing one map of a change set.** -/
theorem getElem?_foldl_update (m : Std.ExtTreeMap Address α) (f : α → Account → Account)
    (w : World) (a : Address) :
    (m.foldl (fun w b v => w.update b (f v)) w).accounts[a]? =
      match m[a]? with
      | some v => some (f v (w.account a))
      | none => w.accounts[a]? := by
  rw [Std.ExtTreeMap.foldl_eq_foldl_toList]
  have hdistinct : m.toList.Pairwise fun x y => x.1 ≠ y.1 := by
    refine Std.ExtTreeMap.distinct_keys_toList.imp fun hne hsame => hne ?_
    rw [hsame]
    exact Std.ReflCmp.compare_self
  cases hm : m[a]? with
  | some v =>
      exact getElem?_foldl_update_of_mem hdistinct
        (Std.ExtTreeMap.mem_toList_iff_getElem?_eq_some.mpr hm) w
  | none =>
      refine getElem?_foldl_update_of_not_mem (fun v hv => ?_) w
      rw [Std.ExtTreeMap.mem_toList_iff_getElem?_eq_some.mp hv] at hm
      cases hm

theorem account_foldl_update (m : Std.ExtTreeMap Address α) (f : α → Account → Account)
    (w : World) (a : Address) :
    (m.foldl (fun w b v => w.update b (f v)) w).account a =
      match m[a]? with
      | some v => f v (w.account a)
      | none => w.account a := by
  rw [account, getElem?_foldl_update]
  cases m[a]? <;> rfl

/-! ### What storage slots leave alone -/

section Store

variable {β : Type} {f : Account → β} (hf : ∀ x key value, f (Account.store x key value) = f x)

include hf

/-- What does not look at the storage of an account is not changed by writing slots. -/
theorem field_foldl_store (m : Std.ExtTreeMap Slot Word) (w : World) (a : Address) :
    f ((m.foldl (fun w slot v => w.update slot.account fun x => x.store slot.key v) w).account a) =
      f (w.account a) := by
  rw [Std.ExtTreeMap.foldl_eq_foldl_toList]
  induction m.toList generalizing w with
  | nil => rfl
  | cons entry entries ih =>
      rw [List.foldl_cons, ih, account_update]
      split
      · next h => rw [hf, h]
      · rfl

/-- **An account once a change set has been applied**, but for its storage: what the change set
names, and for the rest what was found before. -/
theorem field_apply (w : World) (c : ChangeSet) (a : Address) :
    f ((w.apply c).account a) =
      f { w.account a with
        balance := (c.balances[a]?).getD (w.account a).balance
        nonce := (c.nonces[a]?).getD (w.account a).nonce
        code := (c.codes[a]?).getD (w.account a).code } := by
  unfold apply
  dsimp only
  rw [field_foldl_store hf, account_foldl_update, account_foldl_update, account_foldl_update]
  cases c.balances[a]? <;> cases c.nonces[a]? <;> cases c.codes[a]? <;> rfl

end Store

theorem balance_apply (w : World) (c : ChangeSet) (a : Address) :
    (w.apply c).view.balance a = (c.balances[a]?).getD (w.view.balance a) :=
  field_apply (f := Account.balance) (fun _ _ _ => rfl) w c a

theorem nonce_apply (w : World) (c : ChangeSet) (a : Address) :
    (w.apply c).view.nonce a = (c.nonces[a]?).getD (w.view.nonce a) :=
  field_apply (f := Account.nonce) (fun _ _ _ => rfl) w c a

theorem code_apply (w : World) (c : ChangeSet) (a : Address) :
    (w.apply c).view.code a = (c.codes[a]?).getD (w.view.code a) :=
  field_apply (f := Account.code) (fun _ _ _ => rfl) w c a

/-! ### The change set of a finished overlay -/

theorem layers_closeMany_all (o : Overlay) : (o.closeMany .commit o.layers.length).layers = [] := by
  rw [← List.length_eq_zero_iff, Overlay.length_layers_closeMany, Nat.sub_self]

/-- Once every snapshot is committed, all that was written is in the change set. -/
theorem find?_closeMany_all (o : Overlay) {β : Type} (f : ChangeSet → Option β) :
    (o.closeMany .commit o.layers.length).find? f = f o.finish := by
  rw [Overlay.find?_eq, layers_closeMany_all, List.findSome?_nil, Option.or_none]
  rfl

/-- What is found of a pending state is what its change set says. -/
theorem find?_eq_finish (o : Overlay) {β : Type} {f : ChangeSet → Option β}
    (hf : ∀ older newer, f (older.merge newer) = (f newer).or (f older)) :
    o.find? f = f o.finish := by
  rw [← find?_closeMany_all o f, Overlay.find?_closeMany_commit o hf]

section Finish

variable {o : Overlay} (hstored : o.stored = w.view) (a : Address)

include hstored

/-- **The balances read last are the ones stored**, whatever snapshots were still open. -/
theorem balance_apply_finish : (w.apply o.finish).view.balance a = o.view.balance a := by
  show _ = o.balance a
  rw [balance_apply, Overlay.balance,
    find?_eq_finish o (ChangeSet.getElem?_balances_merge · · a), hstored]

/-- So are the nonces. -/
theorem nonce_apply_finish : (w.apply o.finish).view.nonce a = o.nonce a := by
  rw [nonce_apply, Overlay.nonce, find?_eq_finish o (ChangeSet.getElem?_nonces_merge · · a),
    hstored]

/-- So are the codes. -/
theorem code_apply_finish : (w.apply o.finish).view.code a = o.code a := by
  rw [code_apply, Overlay.code, find?_eq_finish o (ChangeSet.getElem?_codes_merge · · a), hstored]

end Finish

end MessageCalls.World

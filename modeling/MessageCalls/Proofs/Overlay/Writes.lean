import MessageCalls.Account.Overlay
/-!
# MessageCalls.Proofs.Overlay.Writes

Where the operations of an overlay write. **Moving value and incrementing a nonce write to the
innermost layer only** (`Overlay.beneath_transfer`, `Overlay.incNonce_eq_ok_iff`), and a nonce
written there is the last write to all pending ones (`Overlay.changes_setNonce`).
-/

namespace MessageCalls

namespace ChangeSet

/-- Merging nothing in changes nothing. -/
@[simp] theorem merge_empty (c : ChangeSet) : c.merge .empty = c := by
  ext <;> simp [getElem?_balances_merge, getElem?_nonces_merge, getElem?_codes_merge,
    getElem?_storages_merge, empty]

/-- Merging into nothing changes nothing. -/
@[simp] theorem empty_merge (c : ChangeSet) : ChangeSet.empty.merge c = c := by
  ext <;> simp [getElem?_balances_merge, getElem?_nonces_merge, getElem?_codes_merge,
    getElem?_storages_merge, empty]

/-- A nonce is written. -/
def setNonce (c : ChangeSet) (a : Address) (n : Nonce) : ChangeSet :=
  { c with nonces := c.nonces.insert a n }

/-- The last write of a merged change set may as well be made after the merge. -/
theorem merge_setNonce (older newer : ChangeSet) (a : Address) (n : Nonce) :
    older.merge (newer.setNonce a n) = (older.merge newer).setNonce a n := by
  refine ext (fun _ => rfl) (fun b => ?_) (fun _ => rfl) (fun _ => rfl)
  rw [getElem?_nonces_merge, setNonce, setNonce, Std.ExtTreeMap.getElem?_insert,
    Std.ExtTreeMap.getElem?_insert, getElem?_nonces_merge]
  split <;> rfl

end ChangeSet

namespace Overlay

theorem changes_setNonce (o : Overlay) (a : Address) (n : Nonce) :
    (o.setNonce a n).changes = o.changes.setNonce a n :=
  ChangeSet.merge_setNonce _ o.current a n

/-- A transfer, failed or not, writes to the innermost layer. -/
theorem beneath_transfer (o : Overlay) (t : Transfer) :
    (o.transfer t).2.stored = o.stored ∧ (o.transfer t).2.layers = o.layers := by
  unfold transfer
  split
  · exact ⟨rfl, rfl⟩
  · dsimp only
    split <;> exact ⟨rfl, rfl⟩

theorem code_transfer (o : Overlay) (t : Transfer) : (o.transfer t).2.code = o.code := by
  unfold transfer
  split
  · rfl
  · dsimp only
    split <;> rfl

theorem nonce_transfer (o : Overlay) (t : Transfer) : (o.transfer t).2.nonce = o.nonce := by
  unfold transfer
  split
  · rfl
  · dsimp only
    split <;> rfl

theorem storage_transfer (o : Overlay) (t : Transfer) : (o.transfer t).2.storage = o.storage := by
  unfold transfer
  split
  · rfl
  · dsimp only
    split <;> rfl

/-- The nonce of an account is incremented exactly while it is not the largest one. -/
theorem incNonce_eq_ok_iff {o p : Overlay} {a : Address} :
    o.incNonce a = .ok p ↔
      (o.nonce a).toNat < 2 ^ 64 - 1 ∧ p = o.setNonce a (o.nonce a + 1) := by
  have hlargest : o.nonce a = UInt64.ofNat (2 ^ 64 - 1) ↔ ¬ (o.nonce a).toNat < 2 ^ 64 - 1 := by
    rw [← UInt64.toNat_inj]
    have hbound := (o.nonce a).toNat_lt
    have hmax : (UInt64.ofNat (2 ^ 64 - 1)).toNat = 2 ^ 64 - 1 := rfl
    omega
  rw [incNonce]
  by_cases h : (o.nonce a).toNat < 2 ^ 64 - 1
  · rw [if_neg (fun hmax => hlargest.mp hmax h), Except.ok.injEq]
    exact ⟨fun hok => ⟨h, hok.symm⟩, fun hok => hok.2.symm⟩
  · rw [if_pos (hlargest.mpr h)]
    exact ⟨fun hok => (by cases hok), fun hok => absurd hok.1 h⟩

end Overlay

end MessageCalls

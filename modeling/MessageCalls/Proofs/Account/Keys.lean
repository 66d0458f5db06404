import MessageCalls.Account.ChangeSet
/-!
# MessageCalls.Proofs.Account.Keys

A change set as one partial function. It keeps four maps, with values of four types; a `ChangeKey`
names an entry of any of them, so that what holds of every map is said and proved once.

**A change set is what it has under each key** (`ChangeSet.ext_get?`), and of two merged ones the
newer is asked first (`ChangeSet.get?_merge`). The laws of merging follow: merging a change set with
itself changes nothing, and change sets that share no key may be merged in either order.
-/

namespace MessageCalls

/-- Where a change set may have a value. -/
inductive ChangeKey
  | balance (a : Address)
  | nonce (a : Address)
  | code (a : Address)
  | slot (s : Slot)
  deriving DecidableEq

/-- What is held under a key. -/
def ChangeKey.Value : ChangeKey → Type
  | balance _ => Amount
  | nonce _ => Nonce
  | code _ => Bytes
  | slot _ => Word

namespace ChangeSet

variable {c d : ChangeSet}

/-- The value that a change set has under a key. -/
def get? (c : ChangeSet) : (k : ChangeKey) → Option k.Value
  | .balance a => c.balances[a]?
  | .nonce a => c.nonces[a]?
  | .code a => c.codes[a]?
  | .slot s => c.storages[s]?

/-- Change sets that have the same under every key are the same. -/
theorem ext_get? (h : ∀ k, c.get? k = d.get? k) : c = d :=
  ext (fun a => h (.balance a)) (fun a => h (.nonce a)) (fun a => h (.code a))
    fun s => h (.slot s)

@[simp] theorem get?_empty (k : ChangeKey) : empty.get? k = none := by
  cases k <;> exact Std.ExtTreeMap.getElem?_empty

/-- **Of two change sets merged the newer is asked first.** -/
@[simp] theorem get?_merge (older newer : ChangeSet) (k : ChangeKey) :
    (older.merge newer).get? k = (newer.get? k).or (older.get? k) := by
  cases k with
  | balance a => exact getElem?_balances_merge older newer a
  | nonce a => exact getElem?_nonces_merge older newer a
  | code a => exact getElem?_codes_merge older newer a
  | slot s => exact getElem?_storages_merge older newer s

/-- The change sets share no key. -/
def Apart (c d : ChangeSet) : Prop := ∀ k, c.get? k = none ∨ d.get? k = none

/-- Merging a change set with itself changes nothing. -/
@[simp] theorem merge_self (c : ChangeSet) : c.merge c = c := by
  refine ext_get? fun k => ?_
  simp

/-- Where no key is shared, neither change set is the newer one. -/
theorem Apart.merge_comm (h : c.Apart d) : c.merge d = d.merge c := by
  refine ext_get? fun k => ?_
  rw [get?_merge, get?_merge]
  rcases h k with hnone | hnone <;> simp [hnone]

end ChangeSet

end MessageCalls

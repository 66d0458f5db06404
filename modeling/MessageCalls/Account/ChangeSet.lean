import Std.Data.ExtTreeMap
import MessageCalls.Word
/-!
# MessageCalls.Account.ChangeSet

The account writes of some stretch of a run: for each balance, nonce, code and storage slot that
was written, the last value. **Of two change sets merged the newer one wins**, key by key
(`getElem?_balances_merge` and its companions).
-/

namespace MessageCalls

/-- A storage slot of an account; slots are ordered by account, then by key. -/
structure Slot where
  account : Address
  key : Word
  deriving DecidableEq, Repr

namespace Slot

instance : Ord Slot := ⟨compareLex (compareOn account) (compareOn key)⟩

theorem compare_def (s t : Slot) :
    compare s t = compareLex (compareOn account) (compareOn key) s t := rfl

instance : Std.TransOrd Slot :=
  inferInstanceAs (Std.TransCmp (compareLex (compareOn account) (compareOn key)))

instance : Std.LawfulEqOrd Slot where
  eq_of_compare {s t} h := by
    rw [compare_def, compareLex_eq_eq] at h
    obtain ⟨account, key⟩ := s
    obtain ⟨account', key'⟩ := t
    simp only [compareOn, Std.LawfulEqCmp.compare_eq_iff_eq] at h
    rw [h.1, h.2]

end Slot

/-- The last values written. -/
structure ChangeSet where
  balances : Std.ExtTreeMap Address Amount := ∅
  nonces : Std.ExtTreeMap Address Nonce := ∅
  codes : Std.ExtTreeMap Address Bytes := ∅
  storages : Std.ExtTreeMap Slot Word := ∅

namespace ChangeSet

/-- Nothing was written. -/
def empty : ChangeSet := {}

/-- The writes of `older` followed by those of `newer`. -/
def merge (older newer : ChangeSet) : ChangeSet where
  balances := older.balances ∪ newer.balances
  nonces := older.nonces ∪ newer.nonces
  codes := older.codes ∪ newer.codes
  storages := older.storages ∪ newer.storages

/-- A balance, a nonce or a code of the account was written. Writing a storage slot does not
bring an account into existence. -/
def touches (c : ChangeSet) (a : Address) : Bool :=
  c.balances.contains a || c.nonces.contains a || c.codes.contains a

theorem getElem?_balances_merge (older newer : ChangeSet) (a : Address) :
    (older.merge newer).balances[a]? = newer.balances[a]?.or older.balances[a]? :=
  Std.ExtTreeMap.getElem?_union

theorem getElem?_nonces_merge (older newer : ChangeSet) (a : Address) :
    (older.merge newer).nonces[a]? = newer.nonces[a]?.or older.nonces[a]? :=
  Std.ExtTreeMap.getElem?_union

theorem getElem?_codes_merge (older newer : ChangeSet) (a : Address) :
    (older.merge newer).codes[a]? = newer.codes[a]?.or older.codes[a]? :=
  Std.ExtTreeMap.getElem?_union

theorem getElem?_storages_merge (older newer : ChangeSet) (s : Slot) :
    (older.merge newer).storages[s]? = newer.storages[s]?.or older.storages[s]? :=
  Std.ExtTreeMap.getElem?_union

/-- Change sets with the same entries are the same. -/
@[ext] theorem ext {c d : ChangeSet} (balances : ∀ a : Address, c.balances[a]? = d.balances[a]?)
    (nonces : ∀ a : Address, c.nonces[a]? = d.nonces[a]?)
    (codes : ∀ a : Address, c.codes[a]? = d.codes[a]?)
    (storages : ∀ s : Slot, c.storages[s]? = d.storages[s]?) : c = d := by
  cases c
  cases d
  simp only [mk.injEq]
  exact ⟨Std.ExtTreeMap.ext_getElem? balances, Std.ExtTreeMap.ext_getElem? nonces,
    Std.ExtTreeMap.ext_getElem? codes, Std.ExtTreeMap.ext_getElem? storages⟩

end ChangeSet

end MessageCalls

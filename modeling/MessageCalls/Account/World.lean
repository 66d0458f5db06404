import MessageCalls.Account.ChangeSet
import MessageCalls.Account.View
import MessageCalls.Hash.Keccak
import MessageCalls.Log
/-!
# MessageCalls.Account.World

Stored account state, held in memory: a finite map from addresses to accounts. A finished run
hands over its change set, and `World.apply` writes it; **a storage slot written as zero is
removed**, so that no stored slot is zero unless it was put there from outside.
-/

namespace MessageCalls

/-- A stored account. -/
structure Account where
  /-- The number of creations the account has made. -/
  nonce : Nonce := 0
  balance : Amount := 0
  storage : Storage := ∅
  code : Bytes := []

/-- The account that an absent address reads as. -/
def Account.empty : Account := {}

/-- A word is written to a storage slot; zero removes the slot. -/
def Account.store (x : Account) (key value : Word) : Account :=
  { x with storage := if value = 0 then x.storage.erase key else x.storage.insert key value }

instance : Inhabited Account := ⟨.empty⟩

/-- All stored accounts. -/
structure World where
  accounts : Std.ExtTreeMap Address Account := ∅

namespace World

/-- The account at an address, an empty one if there is none. -/
def account (w : World) (a : Address) : Account := w.accounts[a]?.getD .empty

/-- The readings of the stored accounts. -/
def view (w : World) : AccountView where
  balance a := (w.account a).balance
  nonce a := (w.account a).nonce
  code a := (w.account a).code
  codeHash a := Hash.Keccak.digest (w.account a).code
  storage a k := (w.account a).storage[k]?.getD 0
  present a := w.accounts.contains a

/-- The sum of all balances, held at the largest amount. -/
def totalBalance (w : World) : Amount :=
  w.accounts.foldl (fun total _ account => Amount.addSaturating total account.balance) 0

/-- The account at an address is changed, after an empty one has been put there if there was
none. -/
def update (w : World) (a : Address) (f : Account → Account) : World :=
  ⟨w.accounts.insert a (f (w.account a))⟩

/-- Every value of a change set is written. -/
def apply (w : World) (c : ChangeSet) : World :=
  let w := c.balances.foldl (fun w a v => w.update a fun x => { x with balance := v }) w
  let w := c.nonces.foldl (fun w a n => w.update a fun x => { x with nonce := n }) w
  let w := c.codes.foldl (fun w a code => w.update a fun x => { x with code }) w
  c.storages.foldl (fun w slot v => w.update slot.account fun x => x.store slot.key v) w

end World

end MessageCalls

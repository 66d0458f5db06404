import MessageCalls.Account.ChangeSet
import MessageCalls.Account.View
import MessageCalls.Exit
import MessageCalls.Hash.Keccak
import MessageCalls.Message
/-!
# MessageCalls.Account.Overlay

Pending account state: writes in layers over stored state that is only read.

A snapshot puts the writes made so far aside and starts an empty layer; a write goes to the
innermost layer, and a reading comes from the innermost layer that has one, or else from the
stored state. Restoring a snapshot forgets the layers above it, committing folds them into the
layer beneath. **Each open snapshot has exactly one layer**, by the shape of the type.
-/

namespace MessageCalls

/-- A handle to the moment at which a snapshot was taken. -/
structure Snapshot where
  /-- The number of snapshots taken before. -/
  id : UInt64
  /-- The number of snapshots open once this one was taken. -/
  depth : Nat
  deriving DecidableEq, Repr

/-- An open snapshot: its number, and the writes that were put aside when it was taken. -/
structure Layer where
  /-- The number of the snapshot. -/
  id : UInt64
  /-- The writes between the snapshot beneath and this one. -/
  beneath : ChangeSet

/-- Pending account state. -/
structure Overlay where
  /-- The state that is only read. -/
  stored : AccountView
  /-- The writes since the innermost open snapshot. -/
  current : ChangeSet := {}
  /-- The open snapshots, innermost first. -/
  layers : List Layer := []
  /-- The number of the next snapshot. -/
  nextId : UInt64 := 0

namespace Overlay

/-! ### Readings -/

/-- The value that the innermost layer having one gives. -/
def find? {α : Type} (o : Overlay) (f : ChangeSet → Option α) : Option α :=
  match f o.current with
  | some value => some value
  | none => o.layers.findSome? fun l => f l.beneath

/-- The pending balance of an account. -/
def balance (o : Overlay) (a : Address) : Amount :=
  (o.find? (·.balances[a]?)).getD (o.stored.balance a)

/-- The pending nonce of an account. -/
def nonce (o : Overlay) (a : Address) : Nonce :=
  (o.find? (·.nonces[a]?)).getD (o.stored.nonce a)

/-- The pending code of an account. -/
def code (o : Overlay) (a : Address) : Bytes :=
  (o.find? (·.codes[a]?)).getD (o.stored.code a)

/-- The hash of the pending code of an account. -/
def codeHash (o : Overlay) (a : Address) : Word :=
  match o.find? (·.codes[a]?) with
  | some code => Hash.Keccak.digest code
  | none => o.stored.codeHash a

/-- The pending word in a storage slot. -/
def storage (o : Overlay) (a : Address) (k : Word) : Word :=
  (o.find? (·.storages[Slot.mk a k]?)).getD (o.stored.storage a k)

/-- The account is stored, or a layer touches it. -/
def present (o : Overlay) (a : Address) : Bool :=
  o.current.touches a || o.layers.any (·.beneath.touches a) || o.stored.present a

/-- The readings of the pending state. -/
def view (o : Overlay) : AccountView where
  balance := o.balance
  nonce := o.nonce
  code := o.code
  codeHash := o.codeHash
  storage := o.storage
  present := o.present

/-- The number of open snapshots. -/
def openSnapshots (o : Overlay) : Nat := o.layers.length

/-- All pending writes, those of the layers merged from the outermost to the innermost. -/
def changes (o : Overlay) : ChangeSet :=
  (o.layers.foldr (fun l older => ChangeSet.merge older l.beneath) .empty).merge o.current

/-! ### Writes -/

/-- A balance is written. -/
def setBalance (o : Overlay) (a : Address) (v : Amount) : Overlay :=
  { o with current.balances := o.current.balances.insert a v }

/-- A nonce is written. -/
def setNonce (o : Overlay) (a : Address) (n : Nonce) : Overlay :=
  { o with current.nonces := o.current.nonces.insert a n }

/-- A code is written. -/
def setCode (o : Overlay) (a : Address) (code : Bytes) : Overlay :=
  { o with current.codes := o.current.codes.insert a code }

/-- A storage slot is written. -/
def setStorage (o : Overlay) (a : Address) (k v : Word) : Overlay :=
  { o with current.storages := o.current.storages.insert ⟨a, k⟩ v }

/-- The nonce of an account is incremented, unless it is the largest one. -/
def incNonce (o : Overlay) (a : Address) : Except Halt Overlay :=
  let n := o.nonce a
  if n = UInt64.ofNat (2 ^ 64 - 1) then .error .maxNonce else .ok (o.setNonce a (n + 1))

/-- Value moves from one account to another. The source is debited first, so that an overflow of
the target is found after the debit and leaves it behind. -/
def transfer (o : Overlay) (t : Transfer) : Except Failure Unit × Overlay :=
  if o.balance t.source < t.value then (.error (.halted .insufficientBalance), o)
  else
    let debited := o.setBalance t.source (o.balance t.source - t.value)
    match (debited.balance t.target).add? t.value with
    | none => (.error (.aborted .balanceOverflow), debited)
    | some credit => (.ok (), debited.setBalance t.target credit)

/-! ### Snapshots -/

/-- A snapshot is taken. -/
def snapshot (o : Overlay) : Snapshot × Overlay :=
  (⟨o.nextId, o.layers.length + 1⟩,
    { o with
      current := .empty
      layers := ⟨o.nextId, o.current⟩ :: o.layers
      nextId := o.nextId + 1 })

/-- The handle names an open snapshot: the one at its depth has its number. -/
def isOpen (o : Overlay) (s : Snapshot) : Bool :=
  s.depth ≠ 0 && (o.layers.reverse[s.depth - 1]?.map (·.id)) = some s.id

/-- What becomes of the writes made since a snapshot was taken. -/
inductive Closing
  /-- They are kept. -/
  | commit
  /-- They are forgotten. -/
  | restore
  deriving DecidableEq, Repr

/-- The innermost snapshot is closed. -/
def closeInnermost (o : Overlay) (closing : Closing) : Overlay :=
  match o.layers with
  | [] => o
  | l :: rest =>
    let current := match closing with
      | .commit => l.beneath.merge o.current
      | .restore => l.beneath
    { o with current, layers := rest }

/-- The innermost snapshots are closed, `count` of them. -/
def closeMany (o : Overlay) (closing : Closing) : Nat → Overlay
  | 0 => o
  | count + 1 => closeMany (o.closeInnermost closing) closing count

/-- An open snapshot is closed together with every snapshot taken after it; a handle that is not
open is refused. -/
def close (o : Overlay) (s : Snapshot) (closing : Closing) : Except Abort Overlay :=
  if o.isOpen s then .ok (o.closeMany closing (o.layers.length - (s.depth - 1)))
  else .error .unevenSnapshot

/-- The writes that remain when every open snapshot has been committed. -/
def finish (o : Overlay) : ChangeSet := (o.closeMany .commit o.layers.length).current

@[simp] theorem stored_closeMany (o : Overlay) (closing : Closing) (count : Nat) :
    (o.closeMany closing count).stored = o.stored := by
  induction count generalizing o with
  | zero => rfl
  | succ count ih =>
    rw [closeMany, ih, closeInnermost]
    split <;> rfl

@[simp] theorem length_layers_closeMany (o : Overlay) (closing : Closing) (count : Nat) :
    (o.closeMany closing count).layers.length = o.layers.length - count := by
  induction count generalizing o with
  | zero => rfl
  | succ count ih =>
    rw [closeMany, ih, closeInnermost]
    split
    · next h => simp [h]
    · next h => simp only [h, List.length_cons]; omega

end Overlay

end MessageCalls

import MessageCalls.Account.Overlay
import MessageCalls.Config
import MessageCalls.ContractAddress
import MessageCalls.Journal
import MessageCalls.Native.Basic
/-!
# MessageCalls.Executor.State

The state of the machine that runs message calls, and what is fixed while it runs. Every operation
on the pending accounts that leaves a log record is an operation on the state.

**The first fatal condition is latched** (`Executor.latch`): a later one does not replace it.
-/

namespace MessageCalls

/-- What is fixed while the machine runs. -/
structure Setting where
  /-- The rules of the chain. -/
  config : Config
  interpreter : Interpreter
  natives : NativeSet
  /-- The closings that the accounts refuse even though the snapshot is open, by its number. -/
  refuses : Overlay.Closing → UInt64 → Bool := fun _ _ => false

/-- The state of the machine. -/
structure Executor where
  accounts : Overlay
  /-- The surroundings of the transaction. -/
  tx : TxContext
  /-- The running frame may not modify the state. -/
  isStatic : Bool := false
  /-- The fatal condition latched by the last transaction, if any. -/
  fatal : Option Abort := none
  /-- What has been reported. -/
  journal : Journal := #[]

namespace Executor

/-- An entry is added to the journal. -/
def note (s : Executor) (entry : Entry) : Executor := { s with journal := s.journal.push entry }

/-- A log record is written. -/
def record (s : Executor) (record : Record) : Executor := s.note (.record record)

/-- A fatal condition is latched, unless there is one already. -/
def latch (s : Executor) (cause : Abort) : Executor :=
  match s.fatal with
  | some _ => s
  | none => { s.record (.fatal s.tx.depth cause) with fatal := some cause }

section Fields

variable (s : Executor) (entry : Entry) (r : Record) (cause : Abort)

@[simp] theorem accounts_note : (s.note entry).accounts = s.accounts := rfl
@[simp] theorem tx_note : (s.note entry).tx = s.tx := rfl
@[simp] theorem isStatic_note : (s.note entry).isStatic = s.isStatic := rfl
@[simp] theorem fatal_note : (s.note entry).fatal = s.fatal := rfl

@[simp] theorem accounts_record : (s.record r).accounts = s.accounts := rfl
@[simp] theorem tx_record : (s.record r).tx = s.tx := rfl
@[simp] theorem isStatic_record : (s.record r).isStatic = s.isStatic := rfl
@[simp] theorem fatal_record : (s.record r).fatal = s.fatal := rfl

@[simp] theorem accounts_latch : (s.latch cause).accounts = s.accounts := by
  unfold latch
  split <;> rfl

@[simp] theorem tx_latch : (s.latch cause).tx = s.tx := by
  unfold latch
  split <;> rfl

@[simp] theorem isStatic_latch : (s.latch cause).isStatic = s.isStatic := by
  unfold latch
  split <;> rfl

/-- Whatever is latched later, the first condition stays. -/
@[simp] theorem fatal_latch : (s.latch cause).fatal = some (s.fatal.getD cause) := by
  unfold latch
  split
  · next h => simp [h]
  · next h => simp [h]

end Fields

/-! ### The pending accounts -/

/-- The pending accounts are changed without a record. -/
def updateAccounts (s : Executor) (f : Overlay → Overlay) : Executor :=
  { s with accounts := f s.accounts }

/-- A snapshot of the accounts is taken. -/
def snapshot (s : Executor) : Snapshot × Executor :=
  let (handle, accounts) := s.accounts.snapshot
  (handle, { s with accounts }.record (.snapshotTaken handle))

/-- A snapshot of the accounts is closed. -/
def close (setting : Setting) (s : Executor) (handle : Snapshot) (closing : Overlay.Closing) :
    Except Abort Unit × Executor :=
  if setting.refuses closing handle.id then (.error .unevenSnapshot, s)
  else
    let s := s.record (.closing closing handle.id)
    match s.accounts.close handle closing with
    | .ok accounts => (.ok (), { s with accounts })
    | .error cause => (.error cause, s)

/-- Value moves between two accounts. -/
def transfer (s : Executor) (t : Transfer) : Except Failure Unit × Executor :=
  match s.accounts.transfer t with
  | (.ok (), accounts) => (.ok (), { s with accounts }.record (.transferred t))
  | (.error failure, accounts) => (.error failure, { s with accounts })

/-- The nonce of an account is incremented. -/
def incNonce (s : Executor) (a : Address) : Except Halt Executor :=
  match s.accounts.incNonce a with
  | .ok accounts => .ok { s with accounts }
  | .error halt => .error halt

/-- The address that a scheme gives a new contract at this moment. -/
def newAddress (s : Executor) : AddressScheme → Address
  | .legacy caller => contractAddress caller (s.accounts.nonce caller)
  | .fixed address => address

/-- An account is present, or a native contract lives there. -/
def present (setting : Setting) (s : Executor) (a : Address) : Bool :=
  s.accounts.present a || setting.natives.isNative a

/-- All snapshots still open are committed and the remaining writes handed over. -/
def finish (s : Executor) : ChangeSet × Executor :=
  if s.accounts.openSnapshots = 0 then (s.accounts.finish, s)
  else (s.accounts.finish, s.record (.unfinished s.accounts.openSnapshots))

/-- What is handed over does not depend on whether snapshots were left open. -/
theorem finish_fst (s : Executor) : s.finish.1 = s.accounts.finish := by
  unfold finish
  split <;> rfl

end Executor

end MessageCalls

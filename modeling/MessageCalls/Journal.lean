import MessageCalls.Native.Basic
import MessageCalls.Account.Overlay
import MessageCalls.Program
/-!
# MessageCalls.Journal

What a run reports about itself, in order: the calls, creations and exits of frames, the frames
that were handed to the interpreter, the findings that running code notes down, and the log
records of every part of the machine. A record is kept as a cause; its text is written by
`Record.message`.
-/

namespace MessageCalls

/-- A message call whose kind has been worked out. -/
structure Call where
  /-- The account whose code runs. -/
  codeAddress : Address
  /-- The value that moves, if any does. -/
  transfer : Option Transfer
  input : Bytes
  nrg : Budget
  /-- The callee may not modify the state. -/
  isStatic : Bool
  /-- The callee keeps the caller's sender and apparent value. -/
  isDelegate : Bool
  identity : Identity

/-- The beginning or the end of a call or a creation. -/
inductive Event
  | call (call : Call)
  | create (caller address : Address) (scheme : AddressScheme) (value : Amount) (init : Bytes)
      (limit : Nrg)
  /-- The call or creation begun last, and not ended yet, ends. -/
  | exit (exit : Exit) (output : Bytes)

/-- The importance of a log record. -/
inductive Level
  /-- A step of the bookkeeping. -/
  | trace
  /-- The beginning or the end of something a caller asked for. -/
  | debug
  /-- Something that should not happen. -/
  | warn
  deriving DecidableEq, Repr

/-- The name of a level. -/
def Level.name : Level → String
  | trace => "TRACE"
  | debug => "DEBUG"
  | warn => "WARN"

/-- What a log record tells. -/
inductive Record
  | snapshotTaken (snapshot : Snapshot)
  /-- A snapshot is about to be closed. -/
  | closing (kind : Overlay.Closing) (id : UInt64)
  | transferred (transfer : Transfer)
  /-- Pending state is handed over while snapshots are open. -/
  | unfinished (openSnapshots : Nat)
  | native (address : Address) (result : NativeResult)
  | transactCall (caller target : Address) (value : Amount) (limit : Nrg)
  | transactCreate (caller : Address) (value : Amount) (limit : Nrg)
  | simulated (target : Address) (used : Nrg)
  /-- A fatal condition was latched. -/
  | fatal (depth : Nat) (cause : Abort)
  /-- A call was refused before anything happened. -/
  | callRejected (codeAddress : Address) (failure : Failure)
  /-- A creation was refused before anything happened. -/
  | createRejected (caller : Address) (failure : Failure)
  /-- A new contract's address is taken. -/
  | collision (address : Address)
  | callFinished (codeAddress : Address) (depth : Nat) (outcome : CallOutcome)
  | createFinished (address : Address) (depth : Nat) (outcome : CallOutcome)

/-- One entry of the journal. -/
inductive Entry
  /-- A frame begins or ends. -/
  | event (event : Event)
  /-- A frame is handed to the interpreter, which finds the machine at a depth and in a mode. -/
  | frame (code : Bytes) (frame : Frame) (depth : Nat) (isStatic : Bool)
  /-- Running code notes a finding down. -/
  | finding (label : String) (finding : Finding)
  /-- A part of the machine logs what it does. -/
  | record (record : Record)

/-- All entries so far, in order. -/
abbrev Journal := Array Entry

/-! ### The texts of log records -/

/-- The text of an answer of a native contract. -/
def NativeResult.text : NativeResult → String
  | .ok answer =>
    let bytes := ", ".intercalate (answer.output.map fun b => toString b.toNat)
    "Ok(PrecompileOutput \x7b output: [" ++ bytes ++ "], cost: " ++ toString answer.cost.toNat
      ++ " \x7d)"
  | .error (.other text) => "Err(Other(\"" ++ text ++ "\"))"
  | .error halt => "Err(" ++ halt.tag ++ ")"

namespace Record

/-- The importance of a record. -/
def level : Record → Level
  | snapshotTaken _ | closing _ _ | transferred _ | native _ _ => .trace
  | unfinished _ | fatal _ _ => .warn
  | _ => .debug

/-- The end of a finished call or creation. -/
private def ending (depth : Nat) (o : CallOutcome) : String :=
  " at depth " ++ toString depth ++ " finished: success " ++ toString o.isSuccess
    ++ ", nrg left " ++ toString o.nrgLeft.toNat

/-- The text of a record. -/
def message : Record → String
  | snapshotTaken s => "Snapshot " ++ toString s.id.toNat ++ " taken at depth " ++ toString s.depth
  | closing .commit id => "Committing snapshot " ++ toString id.toNat
  | closing .restore id => "Restoring snapshot " ++ toString id.toNat
  | transferred t =>
    "Transferred " ++ Amount.text t.value ++ " from " ++ Address.text t.source ++ " to "
      ++ Address.text t.target
  | unfinished count => "Deconstructing overlay with " ++ toString count ++ " open snapshots"
  | native a result => "Precompile " ++ Address.text a ++ ": " ++ result.text
  | transactCall caller target value limit =>
    "Transact call from " ++ Address.text caller ++ " to " ++ Address.text target ++ " (value "
      ++ Amount.text value ++ ", nrg " ++ toString limit.toNat ++ ")"
  | transactCreate caller value limit =>
    "Transact create from " ++ Address.text caller ++ " (value " ++ Amount.text value ++ ", nrg "
      ++ toString limit.toNat ++ ")"
  | simulated target used =>
    "Simulated call to " ++ Address.text target ++ " used " ++ toString used.toNat ++ " nrg"
  | fatal depth cause =>
    "Fatal condition at depth " ++ toString depth ++ ": " ++ cause.message
  | callRejected a failure => "Call to " ++ Address.text a ++ " rejected: " ++ failure.message
  | createRejected a failure =>
    "Create from " ++ Address.text a ++ " rejected: " ++ failure.message
  | collision a => "Create address collision at " ++ Address.text a
  | callFinished a depth o => "Call to " ++ Address.text a ++ ending depth o
  | createFinished a depth o => "Create " ++ Address.text a ++ ending depth o

end Record

end MessageCalls

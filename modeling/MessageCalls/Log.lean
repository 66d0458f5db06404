import Std.Data.ExtTreeMap
import MessageCalls.Exit
import MessageCalls.Word
/-!
# MessageCalls.Log

The two sequences that running code writes besides the account state: the logs of contracts, which
are rolled back together with the frame that emitted them, and the step logs of the interpreter,
which are kept whatever happens.
-/

namespace MessageCalls

/-- The storage of one account: a finite map from keys to values, in the order of the keys. -/
abbrev Storage := Std.ExtTreeMap Word Word

/-- An entry that a contract emits. -/
structure Log where
  /-- The account that owns the entry. -/
  address : Address
  /-- The indexed words of the entry. -/
  topics : List Word
  /-- The payload of the entry. -/
  data : Bytes
  deriving DecidableEq

/-- One step of the interpreter, recorded for inspection. -/
structure StepLog where
  /-- The program counter before the step. -/
  pc : UInt64
  op : UInt8
  /-- The nrg left before the step. -/
  nrg : Nrg
  /-- The nrg charged by the step. -/
  nrgCost : Nrg
  /-- The depth of the frame that executed the step. -/
  depth : UInt64
  stack : List Amount
  memory : Bytes
  /-- The storage slots of the running account touched so far. -/
  storage : Storage
  /-- The halt raised by the step, if any. -/
  halt : Option Halt

end MessageCalls

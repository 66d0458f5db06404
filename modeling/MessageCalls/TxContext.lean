import MessageCalls.Log
/-!
# MessageCalls.TxContext

What is known to every frame of a transaction: the facts of the block and the transaction, the
hashes of recent ancestors, the current call depth and the logs written so far.

**Only the last 256 ancestors have a hash.** `TxContext.blockHash` never consults its lookup for
another height, and gives the zero word there.
-/

namespace MessageCalls

/-- The facts of the block and the transaction. -/
structure ChainFacts where
  /-- The sender of the transaction. -/
  origin : Address := 0
  /-- The beneficiary of the block. -/
  coinbase : Address := 0
  blockNumber : Amount := 0
  timestamp : Amount := 0
  difficulty : Amount := 0
  nrgLimit : Amount := 0
  deriving DecidableEq, Repr, Inhabited

/-- The number of ancestors whose hash can be had from the current block. -/
def blockHashWindow : Nat := 256

/-- The surroundings of a transaction. -/
structure TxContext where
  /-- What does not change while the transaction runs. -/
  facts : ChainFacts
  /-- The hash of the block at a height, as the chain knows it. -/
  ancestor : UInt64 → Word
  /-- The number of nested frames currently running. -/
  depth : Nat := 0
  /-- The logs of every frame not rolled back, in the order of emission. -/
  logs : List Log := []
  /-- The steps recorded so far, those of rolled back frames included. -/
  stepLogs : List StepLog := []

namespace TxContext

/-- The hash at a height below `number`, from a list of recent hashes that starts with the parent
of block `number`; zero beyond the list. It is computed in amounts, and there is none where a
difference is negative or no place in the list is meant. -/
def recentHash? (number : Amount) (recent : List Word) (height : UInt64) : Option Word := do
  let above ← Amount.sub? number (Amount.widen height)
  let distance ← Amount.sub? above 1
  if recent.length ≤ distance.toNat then return 0
  let place ← Amount.index? distance
  recent[place]?

/-- Surroundings that resolve block hashes from a list of recent hashes, the parent first. -/
def withRecentHashes (facts : ChainFacts) (recent : List Word) : TxContext :=
  { facts, ancestor := fun height => (recentHash? facts.blockNumber recent height).getD 0 }

/-- The hash of an ancestor of block `number`: the answer of `lookup`, or zero, and `lookup` is not
asked, if `height` is not among the last `blockHashWindow` ancestors. A lookup may fail, as would a
difference that is negative, or it may keep a record of what it is asked. -/
def ancestorHash {m : Type → Type} [Alternative m] (number : Amount) (lookup : UInt64 → m Word)
    (height : UInt64) : m Word :=
  let level := Amount.widen height
  if number ≤ level then pure 0
  else
    match Amount.sub? number level with
    | none => failure
    | some generations =>
      if blockHashWindow < generations.toNat then pure 0 else lookup level.low

/-- The hash of an ancestor, or zero if `height` is not among the last `blockHashWindow` ancestors
of the current block. -/
def blockHash (tx : TxContext) (height : UInt64) : Word :=
  (ancestorHash tx.facts.blockNumber (fun height => some (tx.ancestor height)) height).getD 0

/-- The same surroundings at another depth. -/
def setDepth (tx : TxContext) (depth : Nat) : TxContext := { tx with depth }

/-- A log is emitted. -/
def addLog (tx : TxContext) (log : Log) : TxContext := { tx with logs := tx.logs ++ [log] }

/-- The logs after the first `count` are dropped. -/
def truncateLogs (tx : TxContext) (count : Nat) : TxContext :=
  { tx with logs := tx.logs.take count }

/-- A step is recorded. -/
def addStepLog (tx : TxContext) (log : StepLog) : TxContext :=
  { tx with stepLogs := tx.stepLogs ++ [log] }

@[simp] theorem logs_addLog (tx : TxContext) (log : Log) :
    (tx.addLog log).logs = tx.logs ++ [log] := rfl

@[simp] theorem logs_truncateLogs (tx : TxContext) (count : Nat) :
    (tx.truncateLogs count).logs = tx.logs.take count := rfl

@[simp] theorem stepLogs_truncateLogs (tx : TxContext) (count : Nat) :
    (tx.truncateLogs count).stepLogs = tx.stepLogs := rfl

end TxContext

end MessageCalls

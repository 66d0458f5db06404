import MessageCalls.Executor.Run
/-!
# MessageCalls.Executor.Transaction

Transactions and dry runs. A transaction forgets the fatal condition of the last one, runs one
call or creation between a checkpoint of its own and the settling of it, and **keeps nothing if a
fatal condition was latched**. The outcome is the one of the call or creation; a checkpoint that
cannot be settled at the end is latched but does not change the outcome any more.
-/

namespace MessageCalls

/-- The result of a dry run. -/
structure DryRun where
  outcome : CallOutcome
  nrgUsed : Nrg

namespace Executor

/-- The machine is made ready for a transaction, and a checkpoint is taken. -/
def start (s : Executor) : Checkpoint × Executor :=
  { s with fatal := none, isStatic := false, tx := s.tx.setDepth 0 }.checkpoint

/-- A transaction is settled. -/
def conclude (setting : Setting) (point : Checkpoint) (s : Executor) : Executor :=
  s.settleOrLatch setting point (if s.fatal.isSome then .restore else .commit)

/-- A message call as a transaction. -/
def transactCall (setting : Setting) (caller target : Address) (value : Amount) (input : Bytes)
    (nrg : Budget) (s : Executor) : CallOutcome × Executor :=
  let (point, s) := (s.record (.transactCall caller target value nrg.limit)).start
  let (outcome, s) := call setting .call (.external caller) target input nrg value s
  (outcome, conclude setting point s)

/-- A contract creation as a transaction. -/
def transactCreate (setting : Setting) (caller : Address) (value : Amount) (init : Bytes)
    (nrg : Budget) (s : Executor) : CreateOutcome × Executor :=
  let (point, s) := (s.record (.transactCreate caller value nrg.limit)).start
  let (outcome, s) := create setting (.external caller) (.legacy caller) init nrg value s
  (outcome, conclude setting point s)

/-- A call transaction whose every effect is undone. -/
def simulateCall (setting : Setting) (caller target : Address) (value : Amount) (input : Bytes)
    (nrg : Budget) (s : Executor) : DryRun × Executor :=
  let (point, s) := s.checkpoint
  let (outcome, s) := transactCall setting caller target value input nrg s
  let s := s.settleOrLatch setting point .restore
  let nrgUsed := Nrg.subSaturating nrg.limit outcome.nrgLeft
  ({ outcome, nrgUsed }, s.record (.simulated target nrgUsed))

/-- The nrg a call would use, or the reason why it would fail. -/
def estimateNrg (setting : Setting) (caller target : Address) (value : Amount) (input : Bytes)
    (nrg : Budget) (s : Executor) : Except Failure Nrg × Executor :=
  let (dry, s) := simulateCall setting caller target value input nrg s
  (dry.outcome.result.map fun _ => dry.nrgUsed, s)

end Executor

end MessageCalls

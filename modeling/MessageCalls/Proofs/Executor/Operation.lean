import MessageCalls.Proofs.Executor.Aborting
/-!
# MessageCalls.Proofs.Executor.Operation

What a client can have the machine do: transactions, dry runs, creations at a given address, and
every request that running code can make. The moments of an operation are those of its chronicle
and the settling of the checkpoints that the operation takes itself.

**Every operation is one of three things** (`Executor.operated`): an activity, an activity between
a checkpoint and its settling, or such a transaction that is undone in the end.
-/

namespace MessageCalls

/-- What a client can have the machine do outside any frame. -/
inductive Operation
  | transactCall (caller target : Address) (value : Amount) (input : Bytes) (nrg : Budget)
  | transactCreate (caller : Address) (value : Amount) (init : Bytes) (nrg : Budget)
  | simulateCall (caller target : Address) (value : Amount) (input : Bytes) (nrg : Budget)
  | estimateNrg (caller target : Address) (value : Amount) (input : Bytes) (nrg : Budget)
  | create (caller : Identity) (scheme : AddressScheme) (init : Bytes) (nrg : Budget)
      (value : Amount)
  /-- Whatever running code can ask, asked by the client. -/
  | request (r : Request)

namespace Executor

/-- The state after an operation. -/
def operate (setting : Setting) (s : Executor) : Operation → Executor
  | .transactCall caller target value input nrg =>
    (transactCall setting caller target value input nrg s).2
  | .transactCreate caller value init nrg => (transactCreate setting caller value init nrg s).2
  | .simulateCall caller target value input nrg =>
    (simulateCall setting caller target value input nrg s).2
  | .estimateNrg caller target value input nrg =>
    (estimateNrg setting caller target value input nrg s).2
  | .create caller scheme init nrg value => (create setting caller scheme init nrg value s).2
  | .request r => (answer setting (runner setting (s.room setting)) r s).2

/-- The moment at which a checkpoint is settled outside any frame. -/
def settlingOf (setting : Setting) (point : Checkpoint) (closing : Overlay.Closing)
    (s : Executor) : Moment :=
  ⟨[], s, .settled closing (s.settle setting point closing).1⟩

/-- The closing that concludes a transaction. -/
def concluding (s : Executor) : Overlay.Closing := if s.fatal.isSome then .restore else .commit

/-- The moments of a transaction that makes a call, its own settling included. -/
def callTransactionChronicle (setting : Setting) (caller target : Address) (value : Amount)
    (input : Bytes) (nrg : Budget) (s : Executor) : List Moment :=
  let (point, begun) := (s.record (.transactCall caller target value nrg.limit)).start
  let done := (call setting .call (.external caller) target input nrg value begun).2
  transactCallChronicle setting caller target value input nrg s ++
    [settlingOf setting point done.concluding done]

/-- The moments of a transaction that makes a creation, its own settling included. -/
def createTransactionChronicle (setting : Setting) (caller : Address) (value : Amount)
    (init : Bytes) (nrg : Budget) (s : Executor) : List Moment :=
  let (point, begun) := (s.record (.transactCreate caller value nrg.limit)).start
  let done := (create setting (.external caller) (.legacy caller) init nrg value begun).2
  transactCreateChronicle setting caller value init nrg s ++
    [settlingOf setting point done.concluding done]

/-- The moments of a dry run, the settling that undoes it included. -/
def simulateCallChronicle (setting : Setting) (caller target : Address) (value : Amount)
    (input : Bytes) (nrg : Budget) (s : Executor) : List Moment :=
  let (point, begun) := s.checkpoint
  let done := (transactCall setting caller target value input nrg begun).2
  callTransactionChronicle setting caller target value input nrg begun ++
    [settlingOf setting point .restore done]

/-- The moments of an operation. -/
def operationChronicle (setting : Setting) (s : Executor) : Operation → List Moment
  | .transactCall caller target value input nrg =>
    callTransactionChronicle setting caller target value input nrg s
  | .transactCreate caller value init nrg =>
    createTransactionChronicle setting caller value init nrg s
  | .simulateCall caller target value input nrg | .estimateNrg caller target value input nrg =>
    simulateCallChronicle setting caller target value input nrg s
  | .create caller scheme init nrg value =>
    createChronicle setting (runner setting (s.room setting)) (recorder setting (s.room setting))
      [] caller scheme init nrg value s
  | .request r =>
    requestChronicle setting (runner setting (s.room setting))
      (recorder setting (s.room setting)) [] r s

/-! ### Every operation is of one of three kinds -/

variable {setting : Setting} {s t : Executor} {moments : List Moment}

/-- A transaction: an activity between a checkpoint and the settling of it. -/
inductive Transacted (setting : Setting) (s : Executor) : List Moment → Executor → Prop
  | intro {moments : List Moment} {t : Executor} (r : Record)
      (hremark : (Entry.record r).isRemark = true)
      (body : Activity setting [] (s.prepared r).checkpoint.2 moments t) :
      Transacted setting s
        (moments ++ [settlingOf setting (s.prepared r).checkpoint.1 t.concluding t])
        (conclude setting (s.prepared r).checkpoint.1 t)

/-- What an operation does. -/
inductive Operated (setting : Setting) (s : Executor) : List Moment → Executor → Prop
  /-- It is an activity. -/
  | activity {moments : List Moment} {t : Executor} (h : Activity setting [] s moments t) :
      Operated setting s moments t
  /-- It is a transaction. -/
  | transaction {moments : List Moment} {t : Executor} (h : Transacted setting s moments t) :
      Operated setting s moments t
  /-- It is a transaction guarded by another checkpoint, which is restored. -/
  | dryRun {moments : List Moment} {t : Executor}
      (h : Transacted setting s.checkpoint.2 moments t) (r : Record)
      (hremark : (Entry.record r).isRemark = true) :
      Operated setting s (moments ++ [settlingOf setting s.checkpoint.1 .restore t])
        ((t.settleOrLatch setting s.checkpoint.1 .restore).record r)

theorem transacted_call (setting : Setting) (caller target : Address) (value : Amount)
    (input : Bytes) (nrg : Budget) (s : Executor) :
    Transacted setting s (callTransactionChronicle setting caller target value input nrg s)
      (transactCall setting caller target value input nrg s).2 := by
  let begun := (s.prepared (.transactCall caller target value nrg.limit)).checkpoint.2
  have hcalled := called setting (begun.room setting) [] begun .call (.external caller) target
    input nrg value
  exact .intro (.transactCall caller target value nrg.limit) rfl hcalled.activity

theorem transacted_create (setting : Setting) (caller : Address) (value : Amount) (init : Bytes)
    (nrg : Budget) (s : Executor) :
    Transacted setting s (createTransactionChronicle setting caller value init nrg s)
      (transactCreate setting caller value init nrg s).2 := by
  let begun := (s.prepared (.transactCreate caller value nrg.limit)).checkpoint.2
  have hcreated := created setting (begun.room setting) [] begun (.external caller)
    (.legacy caller) init nrg value
  exact .intro (.transactCreate caller value nrg.limit) rfl hcreated.activity

theorem operated_simulateCall (setting : Setting) (caller target : Address) (value : Amount)
    (input : Bytes) (nrg : Budget) (s : Executor) :
    Operated setting s (simulateCallChronicle setting caller target value input nrg s)
      (simulateCall setting caller target value input nrg s).2 :=
  .dryRun (transacted_call setting caller target value input nrg s.checkpoint.2) _ rfl

/-- **Every operation comes about as `Operated` says.** -/
theorem operated (setting : Setting) (s : Executor) (op : Operation) :
    Operated setting s (operationChronicle setting s op) (operate setting s op) := by
  cases op with
  | transactCall caller target value input nrg =>
      exact .transaction (transacted_call setting caller target value input nrg s)
  | transactCreate caller value init nrg =>
      exact .transaction (transacted_create setting caller value init nrg s)
  | simulateCall caller target value input nrg =>
      exact operated_simulateCall setting caller target value input nrg s
  | estimateNrg caller target value input nrg =>
      exact operated_simulateCall setting caller target value input nrg s
  | create caller scheme init nrg value =>
      exact .activity (created setting (s.room setting) [] s caller scheme init nrg value).activity
  | request r =>
      exact .activity (answered setting (s.room setting) [] s r)

end Executor

end MessageCalls

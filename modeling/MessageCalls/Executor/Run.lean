import MessageCalls.Executor.Create
/-!
# MessageCalls.Executor.Run

The machine and the interpreter call each other: the interpreter's requests are answered by the
machine, and a request for a call or a creation makes the machine run the interpreter one level
deeper. The recursion is on the **room**, the number of frames that the call stack limit still
allows: `runner setting room` runs a frame whose nested frames have one less, and there is no
runner without room.
-/

namespace MessageCalls.Executor

/-- The answer of the machine to a request; `room` runs the nested frames. -/
def answer (setting : Setting) (room : Option FrameRunner) (r : Request) (s : Executor) :
    r.Answer × Executor :=
  match r with
  | .balance a => (s.accounts.balance a, s)
  | .nonce a => (s.accounts.nonce a, s)
  | .code a => (s.accounts.code a, s)
  | .codeHash a => (s.accounts.codeHash a, s)
  | .storage a key => (s.accounts.storage a key, s)
  | .present a => (s.present setting a, s)
  | .facts => (s.tx.facts, s)
  | .blockHash height => (s.tx.blockHash height, s)
  | .depth => (s.tx.depth, s)
  | .logs => (s.tx.logs, s)
  | .stepLogs => (s.tx.stepLogs, s)
  | .isStatic => (s.isStatic, s)
  | .setStorage a key value =>
    if s.isStatic then (.error .staticModeViolation, s)
    else (.ok (), s.updateAccounts fun o => o.setStorage a key value)
  | .log entry =>
    if s.isStatic then (.error .staticModeViolation, s)
    else (.ok (), { s with tx := s.tx.addLog entry })
  | .stepLog entry => ((), { s with tx := s.tx.addStepLog entry })
  | .call kind caller target input nrg value =>
    callWith setting room kind caller target input nrg value s
  | .create caller init nrg value =>
    createWith setting room caller (.legacy caller.address) init nrg value s
  | .note label finding => ((), s.note (.finding label finding))

/-- Runs a frame with room for it and so many nested in it, less one; none without room. -/
def runner (setting : Setting) : Nat → Option FrameRunner
  | 0 => none
  | room + 1 => some fun code frame s =>
    (setting.interpreter code frame).run (answer setting (runner setting room))
      (s.note (.frame code frame s.tx.depth s.isStatic))

/-- The number of frames that can still be nested. -/
def room (setting : Setting) (s : Executor) : Nat :=
  setting.config.callStackLimit.toNat - s.tx.depth

/-- A message call. -/
def call (setting : Setting) (kind : CallKind) (caller : Identity) (target : Address)
    (input : Bytes) (nrg : Budget) (value : Amount) (s : Executor) : CallOutcome × Executor :=
  callWith setting (runner setting (s.room setting)) kind caller target input nrg value s

/-- A contract creation. -/
def create (setting : Setting) (caller : Identity) (scheme : AddressScheme) (init : Bytes)
    (nrg : Budget) (value : Amount) (s : Executor) : CreateOutcome × Executor :=
  createWith setting (runner setting (s.room setting)) caller scheme init nrg value s

/-- A program is carried out directly, outside any frame. -/
def perform {α : Type} (setting : Setting) (p : Program α) (s : Executor) : α × Executor :=
  p.run (answer setting (runner setting (s.room setting))) s

end MessageCalls.Executor

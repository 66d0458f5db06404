import MessageCalls.Frame
import MessageCalls.Outcome
import MessageCalls.TxContext
/-!
# MessageCalls.Program

Running code as a tree of requests. An interpreter acts on the world **only through requests** to
the machine that runs it: it reads accounts and facts, writes its storage, emits logs, and enters
nested calls and creations. A `Program` is either done or asks one request and goes on with the
answer, so what a frame does is a value that can be inspected and reasoned about by induction.
-/

namespace MessageCalls

/-- What a run notes down about itself, for whoever watches it. -/
inductive Finding
  | amount (value : Amount)
  | nonce (value : Nonce)
  | bytes (value : Bytes)
  /-- A word or a hash that was read. -/
  | word (value : Word)
  /-- The answer to a question of yes or no. -/
  | flag (value : Bool)
  /-- A number of entries. -/
  | count (value : Nat)
  /-- The facts of the block and the transaction, and the call depth. -/
  | facts (facts : ChainFacts) (depth : Nat)
  | done
  | refused (cause : Halt)
  | called (outcome : CallOutcome)
  | created (outcome : CreateOutcome)

/-- What running code can ask of the machine. -/
inductive Request
  | balance (a : Address)
  | nonce (a : Address)
  | code (a : Address)
  | codeHash (a : Address)
  | storage (a : Address) (key : Word)
  /-- Whether an account is present or native. -/
  | present (a : Address)
  | facts
  | blockHash (height : UInt64)
  | depth
  | logs
  | stepLogs
  /-- Whether the state may not be modified. -/
  | isStatic
  /-- A word is to be written to a storage slot. -/
  | setStorage (a : Address) (key value : Word)
  | log (entry : Log)
  | stepLog (entry : StepLog)
  /-- A message call on behalf of `caller`. For `callCode` and `delegateCall` the target is the
  account whose code runs; `value` counts only for the kinds that move value. -/
  | call (kind : CallKind) (caller : Identity) (target : Address) (input : Bytes) (nrg : Budget)
      (value : Amount)
  /-- A contract creation on behalf of `caller`. -/
  | create (caller : Identity) (init : Bytes) (nrg : Budget) (value : Amount)
  /-- A finding is to be noted down; this changes nothing. -/
  | note (label : String) (finding : Finding)

/-- The type of the answer to a request. -/
@[reducible] def Request.Answer : Request → Type
  | balance _ => Amount
  | nonce _ => Nonce
  | code _ => Bytes
  | codeHash _ => Word
  | storage _ _ => Word
  | present _ => Bool
  | facts => ChainFacts
  | blockHash _ => Word
  | depth => Nat
  | logs => List Log
  | stepLogs => List StepLog
  | isStatic => Bool
  | setStorage _ _ _ => Except Halt Unit
  | log _ => Except Halt Unit
  | stepLog _ => Unit
  | call _ _ _ _ _ _ => CallOutcome
  | create _ _ _ _ => CreateOutcome
  | note _ _ => Unit

/-- A computation that acts by requests and ends with a value. -/
inductive Program (α : Type)
  /-- The computation has ended. -/
  | done (value : α)
  /-- A request is asked, and the computation goes on with the answer. -/
  | ask (request : Request) (next : request.Answer → Program α)

namespace Program

variable {α β σ : Type}

/-- One request, whose answer is the value. -/
def request (r : Request) : Program r.Answer := .ask r .done

/-- One computation after another. -/
def bind : Program α → (α → Program β) → Program β
  | done value, f => f value
  | ask r next, f => ask r fun answer => bind (next answer) f

instance : Monad Program where
  pure := done
  bind := bind

@[simp] theorem ask_bind (r : Request) (next : r.Answer → Program α) (f : α → Program β) :
    ask r next >>= f = ask r fun answer => next answer >>= f := rfl

/-- Carry out a computation: every request is answered by `answer`, which may change the state. -/
def run (answer : (r : Request) → σ → r.Answer × σ) : Program α → σ → α × σ
  | done value, s => (value, s)
  | ask r next, s =>
    let (a, s) := answer r s
    run answer (next a) s

theorem run_ask (answer : (r : Request) → σ → r.Answer × σ) (r : Request)
    (next : r.Answer → Program α) (s : σ) :
    run answer (ask r next) s = run answer (next (answer r s).1) (answer r s).2 := rfl

/-- Carrying out two computations one after the other. -/
theorem run_bind (answer : (r : Request) → σ → r.Answer × σ) (p : Program α)
    (f : α → Program β) (s : σ) :
    run answer (p >>= f) s = run answer (f (run answer p s).1) (run answer p s).2 := by
  induction p generalizing s with
  | done value => rfl
  | ask r next ih => rw [ask_bind, run_ask, run_ask, ih]

end Program

/-- An interpreter: the program of a frame that runs some code. -/
abbrev Interpreter := Bytes → Frame → Program FrameResult

end MessageCalls

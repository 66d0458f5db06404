import MessageCalls.Script.Basic
/-!
# MessageCalls.Script.Run

What a script does: its steps as a program. Every step that does not end the frame notes its
result down under the name of the step; a branch notes nothing of its own. A script whose steps
run out stops with all the nrg of the frame.
-/

namespace MessageCalls.Script

/-- What a script remembers of its last call or creation. -/
structure Memory where
  /-- It succeeded. -/
  ok : Bool := false
  /-- Its data. -/
  output : Bytes := []
  /-- The nrg it handed back. -/
  left : Nrg := 0
  /-- The account it created, zero if there is none. -/
  created : Address := 0

/-- The account of a term. -/
def AddressTerm.eval (frame : Frame) (memory : Memory) : AddressTerm → Program Address
  | .self => pure frame.identity.address
  | .caller => pure frame.identity.caller
  | .code => pure frame.codeAddress
  | .created => pure memory.created
  | .origin => do return (← Program.request .facts).origin
  | .literal a => pure a

/-- The amount of a term. -/
def AmountTerm.eval (frame : Frame) : AmountTerm → Program Amount
  | .received => pure frame.identity.apparentValue
  | .halfReceived => pure (frame.identity.apparentValue / 2)
  | .balance => Program.request (.balance frame.identity.address)
  | .literal v => pure v

/-- The nrg of a term. -/
def NrgTerm.eval (frame : Frame) (memory : Memory) : NrgTerm → Nrg
  | .all => frame.nrg.limit
  | .half => frame.nrg.limit / 2
  | .left => memory.left
  | .less n => Nrg.subSaturating frame.nrg.limit n
  | .plus n => Nrg.addSaturating frame.nrg.limit n
  | .literal n => n

/-- The data of a term. -/
def DataTerm.eval (frame : Frame) (memory : Memory) : DataTerm → Bytes
  | .callData => frame.input
  | .last => memory.output
  | .literal bytes => bytes

/-- The identity of a term, the one of the frame if there is no term. -/
def IdentityTerm.eval (frame : Frame) (memory : Memory) :
    Option IdentityTerm → Program Identity
  | none => pure frame.identity
  | some t => do
    let address ← t.address.eval frame memory
    let caller ← t.caller.eval frame memory
    let value ← t.value.eval frame
    return ⟨address, caller, value⟩

/-- Whether a condition holds. -/
def Condition.eval (frame : Frame) (memory : Memory) : Condition → Program Bool
  | .ok => pure memory.ok
  | .isStatic => Program.request .isStatic
  | .depthBelow n => do return decide ((← Program.request .depth) < n)
  | .zero account key => do
    let a ← account.eval frame memory
    return (← Program.request (.storage a key)) = 0

/-- A finding is noted down under the name of a step. -/
def note (label : String) (finding : Finding) : Program Unit :=
  Program.request (.note label finding)

/-- What an answer that carries nothing is noted as. -/
def findingOf : Except Halt Unit → Finding
  | .ok () => .done
  | .error halt => .refused halt

/-- The memory after a call. -/
def Memory.afterCall (memory : Memory) (o : CallOutcome) : Memory :=
  { memory with ok := o.isSuccess, output := o.output, left := o.nrgLeft }

/-- The memory after a creation. -/
def Memory.afterCreate (o : CreateOutcome) : Memory where
  ok := o.isSuccess
  output := o.code?.getD []
  left := o.nrgLeft
  created := o.address.getD 0

/-- The word that counts one up from the low 64 bits of another. -/
def countUp (w : Word) : Word := BitVec.ofNat 256 ((w.toNat + 1) % 2 ^ 64)

mutual

/-- A step is taken: it ends the frame, or leaves what the script remembers. -/
def Step.take (frame : Frame) (memory : Memory) : Step → Program (Except FrameResult Memory)
  | .balance account => do
    let a ← account.eval frame memory
    note "balance" (.amount (← Program.request (.balance a)))
    return .ok memory
  | .nonce account => do
    let a ← account.eval frame memory
    note "nonce" (.nonce (← Program.request (.nonce a)))
    return .ok memory
  | .code account => do
    let a ← account.eval frame memory
    note "code" (.bytes (← Program.request (.code a)))
    return .ok memory
  | .codeHash account => do
    let a ← account.eval frame memory
    note "code_hash" (.word (← Program.request (.codeHash a)))
    return .ok memory
  | .present account => do
    let a ← account.eval frame memory
    note "exists" (.flag (← Program.request (.present a)))
    return .ok memory
  | .storage account key => do
    let a ← account.eval frame memory
    note "storage" (.word (← Program.request (.storage a key)))
    return .ok memory
  | .isStatic => do
    note "is_static" (.flag (← Program.request .isStatic))
    return .ok memory
  | .facts => do
    let facts ← Program.request .facts
    note "facts" (.facts facts (← Program.request .depth))
    return .ok memory
  | .blockHash height => do
    note "block_hash" (.word (← Program.request (.blockHash height)))
    return .ok memory
  | .logs => do
    note "logs" (.count (← Program.request .logs).length)
    return .ok memory
  | .setStorage account key value => do
    let a ← account.eval frame memory
    note "set_storage" (findingOf (← Program.request (.setStorage a key value)))
    return .ok memory
  | .bump account key => do
    let a ← account.eval frame memory
    let old ← Program.request (.storage a key)
    note "bump" (findingOf (← Program.request (.setStorage a key (countUp old))))
    return .ok memory
  | .log account topics data => do
    let a ← account.eval frame memory
    note "log" (findingOf (← Program.request (.log ⟨a, topics, data.eval frame memory⟩)))
    return .ok memory
  | .stepLog entry => do
    Program.request (.stepLog entry)
    note "struct_log" .done
    return .ok memory
  | .call label kind caller target input nrg value => do
    let caller ← IdentityTerm.eval frame memory caller
    let target ← target.eval frame memory
    let value ← value.eval frame
    let budget := frame.nrg.withLimit (nrg.eval frame memory)
    let outcome ← Program.request
      (.call kind caller target (input.eval frame memory) budget value)
    note label (.called outcome)
    return .ok (memory.afterCall outcome)
  | .create caller init nrg value => do
    let caller ← IdentityTerm.eval frame memory caller
    let value ← value.eval frame
    let budget := frame.nrg.withLimit (nrg.eval frame memory)
    let outcome ← Program.request (.create caller (init.eval frame memory) budget value)
    note "create" (.created outcome)
    return .ok (.afterCreate outcome)
  | .branch condition yes no => do
    if ← condition.eval frame memory then takeAll frame memory yes
    else takeAll frame memory no
  | .exit exit data nrg =>
    return .error ⟨exit, data.eval frame memory, nrg.eval frame memory⟩

/-- Steps are taken one after the other, until one of them ends the frame. -/
def takeAll (frame : Frame) (memory : Memory) : List Step → Program (Except FrameResult Memory)
  | [] => return .ok memory
  | step :: rest => do
    match ← step.take frame memory with
    | .error result => return .error result
    | .ok memory => takeAll frame memory rest

end

/-- The program of a script in a frame. -/
def run (frame : Frame) (steps : List Step) : Program FrameResult := do
  match ← takeAll frame {} steps with
  | .error result => return result
  | .ok _ => return .stopped frame.nrg.limit

/-- The interpreter that runs a script for each code it knows, and rejects any other code. -/
def interpreter (scripts : List (Bytes × List Step)) : Interpreter := fun code frame =>
  match scripts.find? fun s => s.1 = code with
  | some (_, steps) => run frame steps
  | none => return .halted .invalidCode

end MessageCalls.Script

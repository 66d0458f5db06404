import MessageCalls.Proofs.Executor.Operation
/-!
# MessageCalls.Proofs.Executor.Spans

The calls and creations of a run **as a forest**: each announced call or creation has the event that
announces it, the calls and creations made by the code that it ran, and its outcome
(`Span`). `Spells` says which words of events such a forest stands for: each span is a pair of
brackets, the opening event and an exit that tells the outcome, around the spans inside it.

* `Executor.requestSpans` gives the spans of one request. It follows `Executor.answer` branch by
  branch, as the chronicle does, and asks the same functions for every state and every outcome.
* `Executor.operationSpans` gives the spans of a whole operation.
-/

namespace MessageCalls

/-- The event announces a call or a creation. -/
def Event.isOpening : Event → Bool
  | .call _ | .create .. => true
  | .exit .. => false

/-- The event ends a call or a creation and tells how it came out: a success returns its data, a
revert the data of the revert, and a failure of any other kind names its reason. -/
inductive Event.Closes : Event → CallOutcome → Prop
  | succeeded {exit : Exit} (h : exit.isSuccess = true) (data : Bytes) (nrgLeft : Nrg) :
      Closes (.exit exit data) ⟨.ok data, nrgLeft⟩
  | reverted (data : Bytes) (nrgLeft : Nrg) :
      Closes (.exit .reverted data) (.failed (.reverted data) nrgLeft)
  | failed {failure : Failure} (h : failure.revertData? = none) (output : Bytes) (nrgLeft : Nrg) :
      Closes (.exit failure.exit output) (.failed failure nrgLeft)

/-- What the answer to a request tells of a call or a creation, if the request makes one. -/
def Request.outcome? : (r : Request) → r.Answer → Option CallOutcome
  | .call .., outcome => some outcome
  | .create .., outcome => some outcome.toCallOutcome
  | _, _ => none

/-- A call or a creation that was announced. -/
inductive Span
  /-- The event that announces it, the calls and creations made inside it, and its outcome. -/
  | mk (opening : Event) (inner : List Span) (outcome : CallOutcome)

/-- How a call or a creation came out. -/
def Span.outcome : Span → CallOutcome
  | .mk _ _ outcome => outcome

/-- The events that some calls and creations stand for, one after the other. -/
inductive Spells : List Span → List Event → Prop
  | nil : Spells [] []
  | cons {opening closing : Event} {inner later : List Span} {outcome : CallOutcome}
      {within after : List Event} (hopens : opening.isOpening = true)
      (hinner : Spells inner within) (hcloses : closing.Closes outcome)
      (hlater : Spells later after) :
      Spells (.mk opening inner outcome :: later) (opening :: within ++ closing :: after)

/-- The number of calls and creations that are open after some events, if `n` are before them. There
is none if something ends that was not announced. -/
def openAfter : Nat → List Event → Option Nat
  | n, [] => some n
  | 0, .exit .. :: _ => none
  | n + 1, .exit .. :: later => openAfter n later
  | n, _ :: later => openAfter (n + 1) later

/-! ### The words of a forest -/

namespace Spells

variable {spans spans' : List Span} {word word' : List Event}

theorem append (h : Spells spans word) (h' : Spells spans' word') :
    Spells (spans ++ spans') (word ++ word') := by
  induction h with
  | nil => exact h'
  | cons hopens hinner hcloses hlater _ ih =>
      have happended := Spells.cons hopens hinner hcloses ih
      rwa [List.append_assoc, List.cons_append] at *

theorem single {opening closing : Event} {outcome : CallOutcome} (hopens : opening.isOpening = true)
    (hinner : Spells spans word) (hcloses : closing.Closes outcome) :
    Spells [.mk opening spans outcome] (opening :: word ++ [closing]) :=
  .cons hopens hinner hcloses .nil

theorem openAfter_opening {opening : Event} (h : opening.isOpening = true) (n : Nat)
    (later : List Event) : openAfter n (opening :: later) = openAfter (n + 1) later := by
  cases opening with
  | exit exit output => cases h
  | _ => cases n <;> rfl

theorem openAfter_closing {closing : Event} {outcome : CallOutcome} (h : closing.Closes outcome)
    (n : Nat) (later : List Event) : openAfter (n + 1) (closing :: later) = openAfter n later := by
  cases h <;> rfl

/-- **The brackets of a forest match**: whatever was open before is open after it, and nothing
else. -/
theorem openAfter_append (h : Spells spans word) (n : Nat) (later : List Event) :
    openAfter n (word ++ later) = openAfter n later := by
  induction h generalizing n later with
  | nil => rfl
  | cons hopens hinner hcloses hlater ihinner ihlater =>
      rw [List.append_assoc, List.cons_append, openAfter_opening hopens, ihinner, List.cons_append,
        openAfter_closing hcloses, ihlater]

end Spells

/-- Lists the calls and creations made by the code of a frame. -/
abbrev FrameSpans := Bytes → Frame → Executor → List Span

namespace Executor

section Spans

variable (setting : Setting) (room : Option FrameRunner) (spans : FrameSpans)

/-- The spans of entering a frame; empty code has none. -/
def enterSpans (code : Bytes) (frame : Frame) (s : Executor) : List Span :=
  if code.isEmpty then [] else spans code frame (s.inside frame)

/-- The spans inside a resolved call. -/
def carryOutSpans (c : Call) (s : Executor) : List Span :=
  let s := s.note (.event (.call c))
  match s.preflight room c.payer c.value with
  | .error _ => []
  | .ok _ =>
    match s.checkpoint.2.pay c.transfer with
    | (.error _, _) => []
    | (.ok (), s) =>
      match setting.natives.run c.codeAddress c.input c.nrg.limit c.identity with
      | some _ => []
      | none => enterSpans spans (s.accounts.code c.codeAddress) (c.frame (s.tx.depth + 1)) s

/-- The span of a message call, unless it is refused before it is announced. -/
def callSpans (kind : CallKind) (caller : Identity) (target : Address) (input : Bytes)
    (nrg : Budget) (value : Amount) (s : Executor) : List Span :=
  if s.isStatic && kind.movesValue && value ≠ 0 then []
  else
    let c := kind.resolve s.isStatic caller target input nrg value
    [.mk (.call c) (carryOutSpans setting room spans c s)
      (callWith setting room kind caller target input nrg value s).1]

/-- The spans inside a creation whose nonce is claimed. -/
def createAtSpans (creator address : Address) (init : Bytes) (nrg : Budget) (value : Amount)
    (s : Executor) : List Span :=
  if s.isTaken address then []
  else
    match s.transfer ⟨creator, address, value⟩ with
    | (.error _, _) => []
    | (.ok (), t) =>
      enterSpans spans init (initFrame creator address value nrg (s.tx.depth + 1)) t

/-- The span of a contract creation, unless it is refused before it is announced. -/
def createSpans (caller : Identity) (scheme : AddressScheme) (init : Bytes) (nrg : Budget)
    (value : Amount) (s : Executor) : List Span :=
  let creator := caller.address
  if s.isStatic then []
  else
    match s.preflight room creator value with
    | .error _ => []
    | .ok _ =>
      let address := s.newAddress scheme
      let opening := Event.create creator address scheme value init nrg.limit
      let inner :=
        match claimNonce setting creator (s.note (.event opening)) with
        | (.error _, _) => []
        | (.ok _, s) => createAtSpans spans creator address init nrg value s
      [.mk opening inner
        (createWith setting room caller scheme init nrg value s).1.toCallOutcome]

/-- The spans of a request. -/
def requestSpans (r : Request) (s : Executor) : List Span :=
  match r with
  | .call kind caller target input nrg value =>
    callSpans setting room spans kind caller target input nrg value s
  | .create caller init nrg value =>
    createSpans setting room spans caller (.legacy caller.address) init nrg value s
  | _ => []

end Spans

/-- Lists the spans of a frame with room for it and so many nested in it, less one. -/
def frameSpans (setting : Setting) : Nat → FrameSpans
  | 0 => fun _ _ _ => []
  | room + 1 => fun code frame s =>
    (setting.interpreter code frame).chronicle (answer setting (runner setting room))
      (requestSpans setting (runner setting room) (frameSpans setting room))
      (s.note (.frame code frame s.tx.depth s.isStatic))

/-- The spans of a transaction that makes a call. -/
def transactCallSpans (setting : Setting) (caller target : Address) (value : Amount)
    (input : Bytes) (nrg : Budget) (s : Executor) : List Span :=
  let s := (s.record (.transactCall caller target value nrg.limit)).start.2
  callSpans setting (runner setting (s.room setting)) (frameSpans setting (s.room setting)) .call
    (.external caller) target input nrg value s

/-- The spans of an operation. -/
def operationSpans (setting : Setting) (s : Executor) : Operation → List Span
  | .transactCall caller target value input nrg =>
    transactCallSpans setting caller target value input nrg s
  | .transactCreate caller value init nrg =>
    let s := (s.record (.transactCreate caller value nrg.limit)).start.2
    createSpans setting (runner setting (s.room setting)) (frameSpans setting (s.room setting))
      (.external caller) (.legacy caller) init nrg value s
  | .simulateCall caller target value input nrg | .estimateNrg caller target value input nrg =>
    transactCallSpans setting caller target value input nrg s.checkpoint.2
  | .create caller scheme init nrg value =>
    createSpans setting (runner setting (s.room setting)) (frameSpans setting (s.room setting))
      caller scheme init nrg value s
  | .request r =>
    requestSpans setting (runner setting (s.room setting)) (frameSpans setting (s.room setting))
      r s

/-- What a client is told of the call or creation that an operation makes, if it makes one. -/
def operationOutcome? (setting : Setting) (s : Executor) : Operation → Option CallOutcome
  | .transactCall caller target value input nrg =>
    some (transactCall setting caller target value input nrg s).1
  | .transactCreate caller value init nrg =>
    some (transactCreate setting caller value init nrg s).1.toCallOutcome
  | .simulateCall caller target value input nrg | .estimateNrg caller target value input nrg =>
    some (simulateCall setting caller target value input nrg s).1.outcome
  | .create caller scheme init nrg value =>
    some (create setting caller scheme init nrg value s).1.toCallOutcome
  | .request r => r.outcome? (answer setting (runner setting (s.room setting)) r s).1

end Executor

end MessageCalls

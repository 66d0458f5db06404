import MessageCalls.Executor.Call
/-!
# MessageCalls.Executor.Create

Contract creations. The address of the new contract is derived before the creator's nonce is
incremented; whether the increment survives a failed creation is a rule of the chain. The init
code runs as the new account, and what it returns becomes the code of the contract once the
deposit is paid.

**An address that has code or a nonce is never created again**: that is a fatal condition.
-/

namespace MessageCalls

/-- The nrg left after the deposit for code of some length has been paid. -/
def Config.depositCode (config : Config) (length : Nat) (nrgLeft : Nrg) : Except Halt Nrg :=
  if config.contractLimit.any fun limit => limit.toNat < length then .error .contractLimit
  else
    let cost := length * config.codeDepositNrg.toNat
    if cost ≤ nrgLeft.toNat then .ok (UInt64.ofNat (nrgLeft.toNat - cost)) else .error .outOfNrg

namespace Executor

/-- The creator's nonce is incremented and a checkpoint taken. The checkpoint comes last where the
increment survives a failure, and first where it does not. -/
def claimNonce (setting : Setting) (creator : Address) (s : Executor) :
    Except Halt Checkpoint × Executor :=
  if setting.config.noncePersistsOnFailure then
    match s.incNonce creator with
    | .error halt => (.error halt, s.note (.event (.exit (.halted halt) [])))
    | .ok s =>
      let (point, s) := s.checkpoint
      (.ok point, s)
  else
    let (point, s) := s.checkpoint
    match s.incNonce creator with
    | .error halt =>
      let s := s.note (.event (.exit (.halted halt) []))
      (.error halt, s.settleOrLatch setting point .restore)
    | .ok s => (.ok point, s)

/-- The address has code or a nonce. -/
def isTaken (s : Executor) (a : Address) : Bool :=
  !(s.accounts.code a).isEmpty || s.accounts.nonce a ≠ 0

/-- The code that a successful run returned is deposited at the new address. A deposit that cannot
be made halts the frame, which keeps its data. -/
def deposit (setting : Setting) (address : Address) (result : FrameResult) (s : Executor) :
    FrameResult × Executor :=
  if result.exit.isSuccess && s.fatal.isNone then
    match setting.config.depositCode result.output.length result.nrgLeft with
    | .ok nrgLeft =>
      ({ result with nrgLeft }, s.updateAccounts fun o => o.setCode address result.output)
    | .error halt => ({ result with exit := .halted halt, nrgLeft := 0 }, s)
  else (result, s)

/-- The frame of the init code of a new contract. -/
def initFrame (creator address : Address) (value : Amount) (nrg : Budget) (depth : Nat) :
    Frame where
  identity := ⟨address, creator, value⟩
  codeAddress := address
  input := []
  nrg := nrg
  isDelegate := false
  isStatic := false
  depth := depth

/-- A creation whose nonce is claimed is carried out at its address. -/
def createAt (setting : Setting) (runner : FrameRunner) (point : Checkpoint)
    (creator address : Address) (init : Bytes) (nrg : Budget) (value : Amount) (s : Executor) :
    CallOutcome × Executor :=
  let depth := s.tx.depth
  if s.isTaken address then
    let s := (s.record (.collision address)).latch .addressCollision
    s.leave setting point (.aborted .addressCollision) [] 0
  else
    match s.transfer ⟨creator, address, value⟩ with
    | (.error failure, s) => s.leave setting point failure.exit [] 0
    | (.ok (), s) =>
      let (result, s) := enter runner init (initFrame creator address value nrg (depth + 1)) s
      let (result, s) := deposit setting address result s
      let (outcome, s) := s.leave setting point result.exit result.output result.nrgLeft
      (outcome, s.record (.createFinished address depth outcome))

/-- A contract creation, with room for its frame or without. -/
def createWith (setting : Setting) (room : Option FrameRunner) (caller : Identity)
    (scheme : AddressScheme) (init : Bytes) (nrg : Budget) (value : Amount) (s : Executor) :
    CreateOutcome × Executor :=
  let creator := caller.address
  if s.isStatic then (.failed none (.halted .staticModeViolation) 0, s)
  else
    match s.preflight room creator value with
    | .error failure =>
      (.failed none failure (failure.refund nrg.limit), s.record (.createRejected creator failure))
    | .ok runner =>
      let address := s.newAddress scheme
      let s := s.note (.event (.create creator address scheme value init nrg.limit))
      match claimNonce setting creator s with
      | (.error halt, s) => (.failed (some address) (.halted halt) nrg.limit, s)
      | (.ok point, s) =>
        let (outcome, s) := createAt setting runner point creator address init nrg value s
        ({ outcome with address := some address }, s)

end Executor

end MessageCalls

import MessageCalls.Word
/-!
# MessageCalls.Message

The parts of a message: who acts for whom (`Identity`), how the callee is entered (`CallKind`),
which value moves (`Transfer`), which nrg comes along (`Budget`) and how the address of a new
contract is found (`AddressScheme`).
-/

namespace MessageCalls

/-- The identity a frame executes under. -/
structure Identity where
  /-- The account whose storage the frame reads and writes. -/
  address : Address
  /-- The effective sender of the frame. -/
  caller : Address
  /-- The value the frame appears to have received. -/
  apparentValue : Amount
  deriving DecidableEq, Repr, Inhabited

/-- The identity of an external account that sends a transaction. -/
def Identity.external (address : Address) : Identity := ⟨address, address, 0⟩

/-- A movement of value between two accounts. -/
structure Transfer where
  source : Address
  target : Address
  value : Amount
  deriving DecidableEq, Repr, Inhabited

/-- The nrg handed to a frame. -/
structure Budget where
  /-- The most nrg the frame may consume. -/
  limit : Nrg
  price : Amount
  deriving DecidableEq, Repr, Inhabited

/-- The same price with another limit. -/
def Budget.withLimit (budget : Budget) (limit : Nrg) : Budget := { budget with limit }

/-- How the address of a new contract is found. -/
inductive AddressScheme
  /-- From an account and its current nonce. -/
  | legacy (caller : Address)
  /-- At an address that is given. -/
  | fixed (address : Address)
  deriving DecidableEq, Repr, Inhabited

/-- How a message call enters the callee. -/
inductive CallKind
  /-- The target's code runs at the target, which receives the value. -/
  | call
  /-- The target's code runs at the caller's own account. -/
  | callCode
  /-- As `callCode`, keeping the caller's sender and apparent value. -/
  | delegateCall
  /-- As `call` without value, in a frame that may not modify the state. -/
  | staticCall
  deriving DecidableEq, Repr, Inhabited

namespace CallKind

/-- The kind moves value from the caller. -/
def movesValue : CallKind → Bool
  | call | callCode => true
  | delegateCall | staticCall => false

/-- The identity of the frame that `caller` enters at `target` with a value. -/
def identity (kind : CallKind) (caller : Identity) (target : Address) (value : Amount) :
    Identity :=
  match kind with
  | call => ⟨target, caller.address, value⟩
  | callCode => ⟨caller.address, caller.address, value⟩
  | delegateCall => caller
  | staticCall => ⟨target, caller.address, 0⟩

/-- The movement of value that goes with a call outside static mode. -/
def transfer? (kind : CallKind) (caller : Identity) (target : Address) (value : Amount) :
    Option Transfer :=
  match kind with
  | call => some ⟨caller.address, target, value⟩
  | callCode => some ⟨caller.address, caller.address, value⟩
  | delegateCall | staticCall => none

end CallKind

end MessageCalls

import MessageCalls.Word
/-!
# MessageCalls.Config

The rules that message calls and creations follow.
-/

namespace MessageCalls

/-- The rules of the chain. -/
structure Config where
  /-- The largest number of nested frames: a call or creation attempted at this depth is
  refused. -/
  callStackLimit : UInt64
  /-- The nonce of a creating account stays incremented when the creation fails. -/
  noncePersistsOnFailure : Bool
  /-- The largest size of deployed code, if there is one. -/
  contractLimit : Option UInt64
  /-- The nrg charged for each byte of deployed code. -/
  codeDepositNrg : Nrg
  deriving DecidableEq, Repr

/-- The Homestead rules. -/
def Config.homestead : Config where
  callStackLimit := 1024
  noncePersistsOnFailure := true
  contractLimit := none
  codeDepositNrg := 200

instance : Inhabited Config := ⟨.homestead⟩

end MessageCalls

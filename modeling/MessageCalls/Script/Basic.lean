import MessageCalls.Program
/-!
# MessageCalls.Script.Basic

A small language of scripted contracts: what a step can say.

A step names accounts, amounts, nrg and data by **terms** that are worked out when the step is
taken, against the frame and what the script remembers of its last call or creation.
-/

namespace MessageCalls.Script

/-- An account, seen from a frame. -/
inductive AddressTerm
  /-- The account the frame runs as. -/
  | self
  /-- The effective sender of the frame. -/
  | caller
  /-- The account the code was loaded from. -/
  | code
  /-- The account of the last creation. -/
  | created
  | origin
  | literal (a : Address)

/-- An amount, seen from a frame. -/
inductive AmountTerm
  /-- The value the frame appears to have received. -/
  | received
  /-- Half of it. -/
  | halfReceived
  /-- The balance of the account the frame runs as. -/
  | balance
  | literal (v : Amount)

/-- A quantity of nrg, seen from a frame. -/
inductive NrgTerm
  /-- The limit of the frame. -/
  | all
  /-- Half of it. -/
  | half
  /-- What the last call or creation handed back. -/
  | left
  /-- The limit less a quantity, held at zero. -/
  | less (n : Nrg)
  /-- The limit and a quantity, held at the largest one. -/
  | plus (n : Nrg)
  | literal (n : Nrg)

/-- Data, seen from a frame. -/
inductive DataTerm
  | callData
  /-- The data of the last call or creation. -/
  | last
  | literal (bytes : Bytes)

/-- On whose behalf a call or creation is made. -/
structure IdentityTerm where
  /-- The account to run as. -/
  address : AddressTerm
  /-- The effective sender. -/
  caller : AddressTerm
  /-- The value apparently received. -/
  value : AmountTerm

/-- What decides a branch. -/
inductive Condition
  /-- The last call or creation succeeded. -/
  | ok
  /-- The state may not be modified. -/
  | isStatic
  /-- The call depth is below a number. -/
  | depthBelow (n : Nat)
  /-- A storage slot holds zero. -/
  | zero (account : AddressTerm) (key : Word)

/-- A step of a script. -/
inductive Step
  | balance (account : AddressTerm)
  | nonce (account : AddressTerm)
  | code (account : AddressTerm)
  | codeHash (account : AddressTerm)
  /-- Whether an account is present or native is asked. -/
  | present (account : AddressTerm)
  | storage (account : AddressTerm) (key : Word)
  /-- Whether the state may not be modified is asked. -/
  | isStatic
  | facts
  | blockHash (height : UInt64)
  /-- The logs written so far are counted. -/
  | logs
  | setStorage (account : AddressTerm) (key value : Word)
  /-- The low 64 bits of a slot are counted up. -/
  | bump (account : AddressTerm) (key : Word)
  | log (account : AddressTerm) (topics : List Word) (data : DataTerm)
  | stepLog (entry : StepLog)
  /-- A call; without an identity it is made as the frame. -/
  | call (label : String) (kind : CallKind) (caller : Option IdentityTerm) (target : AddressTerm)
      (input : DataTerm) (nrg : NrgTerm) (value : AmountTerm)
  /-- A creation; without an identity it is made as the frame. -/
  | create (caller : Option IdentityTerm) (init : DataTerm) (nrg : NrgTerm) (value : AmountTerm)
  /-- One of two lists of steps. -/
  | branch (condition : Condition) (yes no : List Step)
  | exit (exit : Exit) (data : DataTerm) (nrg : NrgTerm)

end MessageCalls.Script

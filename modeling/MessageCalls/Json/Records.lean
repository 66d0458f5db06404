import MessageCalls.Account.View
import MessageCalls.Account.World
import MessageCalls.Config
import MessageCalls.Exit
import MessageCalls.Json.Codec
import MessageCalls.Json.Reader
import MessageCalls.Message
import MessageCalls.TxContext
/-!
# MessageCalls.Json.Records

The JSON forms of the records of this library. `Codec.decode?` reads a text and `Codec.encode`
writes one.
-/

namespace MessageCalls.Codec

/-- The value of a text, if the text is one document that has a value. -/
def decode? {α : Type} (c : Codec α) (text : String) : Option α := (Json.parse? text).bind c.read?

/-- The text of a value. -/
def encode {α : Type} (c : Codec α) (value : α) : String := (c.write value).compact

/-! ### Failures and exits -/

/-- Halts as tags; one that only the interpreter can name carries its text. -/
def halt : Codec Halt where
  write
    | .other message => .record [("Other", .text message)]
    | h => .text h.tag
  read? j := do
    let (tag, carried) ← Json.variant? j
    if tag = "Other" then return .other (← text.read? (← carried))
    guard (Json.carriesNothing carried)
    Halt.plain.find? fun h => h.tag = tag

/-- Fatal conditions as tags; one that only the interpreter can name carries its text. -/
def abort : Codec Abort where
  write
    | .other message => .record [("Other", .text message)]
    | a => .text a.tag
  read? j := do
    let (tag, carried) ← Json.variant? j
    if tag = "Other" then return .other (← text.read? (← carried))
    guard (Json.carriesNothing carried)
    Abort.plain.find? fun a => a.tag = tag

/-- Exits by their family: `Succeed`, `Revert`, `Error` or `Fatal`. -/
def exit : Codec Exit where
  write
    | .stopped => .record [("Succeed", .text "Stopped")]
    | .returned => .record [("Succeed", .text "Returned")]
    | .reverted => .record [("Revert", .text "Reverted")]
    | .halted cause => .record [("Error", halt.write cause)]
    | .aborted cause => .record [("Fatal", abort.write cause)]
  read? j := do
    let (family, carried) ← Json.variant? j
    let carried ← carried
    match family with
    | "Succeed" =>
      let (tag, carried) ← Json.variant? carried
      guard (Json.carriesNothing carried)
      if tag = "Stopped" then some .stopped
      else if tag = "Returned" then some .returned
      else none
    | "Revert" =>
      let (tag, carried) ← Json.variant? carried
      guard (Json.carriesNothing carried)
      if tag = "Reverted" then some .reverted else none
    | "Error" => (halt.read? carried).map .halted
    | "Fatal" => (abort.read? carried).map .aborted
    | _ => none

/-- Failures by their family: `ExecutionReverted`, `Error` or `Fatal`. -/
def failure : Codec Failure where
  write
    | .reverted data => .record [("ExecutionReverted", bytes.write data)]
    | .halted cause => .record [("Error", halt.write cause)]
    | .aborted cause => .record [("Fatal", abort.write cause)]
  read? j := do
    let (family, carried) ← Json.variant? j
    let carried ← carried
    match family with
    | "ExecutionReverted" => (bytes.read? carried).map .reverted
    | "Error" => (halt.read? carried).map .halted
    | "Fatal" => (abort.read? carried).map .aborted
    | _ => none

/-! ### Messages -/

/-- Identities. -/
def identity : Codec Identity where
  write i := .record
    [("address", address.write i.address), ("caller", address.write i.caller),
      ("apparent_value", amount.write i.apparentValue)]
  read? j := do
    match ← Json.fields? ["address", "caller", "apparent_value"] false j with
    | [some a, some c, some v] => return ⟨← address.read? a, ← address.read? c, ← amount.read? v⟩
    | _ => none

/-- Budgets. -/
def budget : Codec Budget where
  write b := .record [("limit", uint64.write b.limit), ("price", amount.write b.price)]
  read? j := do
    match ← Json.fields? ["limit", "price"] false j with
    | [some l, some p] => return ⟨← uint64.read? l, ← amount.read? p⟩
    | _ => none

/-- The tag of a kind of call. -/
def callKindTag : CallKind → String
  | .call => "Call"
  | .callCode => "CallCode"
  | .delegateCall => "DelegateCall"
  | .staticCall => "StaticCall"

/-- Kinds of calls as tags. -/
def callKind : Codec CallKind where
  write k := .text (callKindTag k)
  read? j := do
    let (tag, carried) ← Json.variant? j
    guard (Json.carriesNothing carried)
    [CallKind.call, .callCode, .delegateCall, .staticCall].find? fun k => callKindTag k = tag

/-! ### Logs -/

/-- Logs. -/
def log : Codec Log where
  write l := .record
    [("address", address.write l.address), ("topics", (list word).write l.topics),
      ("data", bytes.write l.data)]
  read? j := do
    match ← Json.fields? ["address", "topics", "data"] false j with
    | [some a, some t, some d] => return ⟨← address.read? a, ← (list word).read? t, ← bytes.read? d⟩
    | _ => none

/-- Step logs; the halt may be left out of an object. -/
def stepLog : Codec StepLog where
  write l := .record
    [("pc", uint64.write l.pc), ("op", byte.write l.op), ("nrg", uint64.write l.nrg),
      ("nrg_cost", uint64.write l.nrgCost), ("depth", uint64.write l.depth),
      ("stack", (list amount).write l.stack), ("memory", bytes.write l.memory),
      ("storage", storage.write l.storage), ("error", (option halt).write l.halt)]
  read? j := do
    match ← Json.fields?
        ["pc", "op", "nrg", "nrg_cost", "depth", "stack", "memory", "storage", "error"] false j with
    | [some pc, some op, some nrg, some cost, some depth, some stack, some memory, some slots, h] =>
      return {
        pc := ← uint64.read? pc
        op := ← byte.read? op
        nrg := ← uint64.read? nrg
        nrgCost := ← uint64.read? cost
        depth := ← uint64.read? depth
        stack := ← (list amount).read? stack
        memory := ← bytes.read? memory
        storage := ← storage.read? slots
        halt := ← (option halt).read? (h.getD .null) }
    | _ => none

/-! ### Rules and facts -/

/-- The value of a field that may be left out. -/
def readOr {α : Type} (c : Codec α) (default : α) : Option Json → Option α
  | some j => c.read? j
  | none => some default

/-- Rules; every field may be left out, and is then the one of the Homestead rules. -/
def config : Codec Config where
  write c := .record
    [("call_stack_limit", uint64.write c.callStackLimit),
      ("create_nonce_persists_on_failure", flag.write c.noncePersistsOnFailure),
      ("create_contract_limit", (option uint64).write c.contractLimit),
      ("code_deposit_nrg", uint64.write c.codeDepositNrg)]
  read? j := do
    match ← Json.fields? ["call_stack_limit", "create_nonce_persists_on_failure",
        "create_contract_limit", "code_deposit_nrg"] true j with
    | [stack, persists, limit, deposit] =>
      return {
        callStackLimit := ← uint64.readOr Config.homestead.callStackLimit stack
        noncePersistsOnFailure := ← flag.readOr Config.homestead.noncePersistsOnFailure persists
        contractLimit := ← (option uint64).readOr Config.homestead.contractLimit limit
        codeDepositNrg := ← uint64.readOr Config.homestead.codeDepositNrg deposit }
    | _ => none

/-- Facts of the block and the transaction. -/
def chainFacts : Codec ChainFacts where
  write f := .record
    [("origin", address.write f.origin), ("coinbase", address.write f.coinbase),
      ("block_number", amount.write f.blockNumber), ("timestamp", amount.write f.timestamp),
      ("difficulty", amount.write f.difficulty), ("nrg_limit", amount.write f.nrgLimit)]
  read? j := do
    match ← Json.fields?
        ["origin", "coinbase", "block_number", "timestamp", "difficulty", "nrg_limit"] false j with
    | [some o, some c, some n, some t, some d, some l] =>
      return ⟨← address.read? o, ← address.read? c, ← amount.read? n, ← amount.read? t,
        ← amount.read? d, ← amount.read? l⟩
    | _ => none

/-! ### Accounts -/

/-- Balances and nonces. -/
def accountBasics : Codec AccountBasics where
  write b := .record [("balance", amount.write b.balance), ("nonce", uint64.write b.nonce)]
  read? j := do
    match ← Json.fields? ["balance", "nonce"] false j with
    | [some b, some n] => return ⟨← amount.read? b, ← uint64.read? n⟩
    | _ => none

/-- Stored accounts. -/
def account : Codec Account where
  write x := .record
    [("nonce", uint64.write x.nonce), ("balance", amount.write x.balance),
      ("storage", storage.write x.storage), ("code", bytes.write x.code)]
  read? j := do
    match ← Json.fields? ["nonce", "balance", "storage", "code"] false j with
    | [some n, some b, some s, some c] =>
      return {
        nonce := ← uint64.read? n
        balance := ← amount.read? b
        storage := ← storage.read? s
        code := ← bytes.read? c }
    | _ => none

end MessageCalls.Codec

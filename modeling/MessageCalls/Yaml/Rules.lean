import MessageCalls.Config
import MessageCalls.Yaml.Node
/-!
# MessageCalls.Yaml.Rules

The rules of a chain as a YAML mapping. **A document overrides the Homestead rules field by
field**: a key that is not given leaves its rule alone, a key that names no rule is ignored, and a
key of a rule given twice or with a value of the wrong kind refuses the document. Numbers are plain
scalars, in decimal without superfluous zeros or with the marks `0x`, `0o` and `0b`.
-/

namespace MessageCalls.Yaml

/-! ### Values -/

/-- The number spelled by digits in a base. -/
def numberInBase? (base : Nat) (digits : List Char) : Option Nat :=
  if digits.isEmpty then none
  else
    digits.foldlM (fun n c => do
      let d ← hexValue? c
      guard (d < base)
      return base * n + d) 0

/-- The number that a plain scalar spells. -/
def number? (text : List Char) : Option Nat :=
  let digits := match text with
    | '+' :: rest => rest
    | _ => text
  match digits with
  | '0' :: 'x' :: rest => numberInBase? 16 rest
  | '0' :: 'o' :: rest => numberInBase? 8 rest
  | '0' :: 'b' :: rest => numberInBase? 2 rest
  | '0' :: _ :: _ => none
  | _ => numberInBase? 10 digits

/-- The scalar may spell a value of a kind with a tag of its own: it is plain, or it is literal text
with that tag. -/
def Scalar.mayBe (s : Scalar) (kind : String) : Bool :=
  match s.style with
  | .plain => true
  | .literal => s.tag = some (standardTag kind)
  | .quoted | .folded => false

/-- The text spells that there is no value. -/
def isNullText (text : String) : Bool :=
  text = "~" || text = "null" || text = "Null" || text = "NULL"

namespace Node

/-- The name that a node spells as a key. -/
def name? : Node → Option String
  | .scalar s => some s.text
  | _ => none

/-- The 64-bit number that a node spells. -/
def uint64? : Node → Option UInt64
  | .scalar s => do
    guard (s.mayBe "int")
    let n ← number? s.text.toList
    if n < 2 ^ 64 then some (UInt64.ofNat n) else none
  | _ => none

/-- The truth value that a node spells. -/
def flag? : Node → Option Bool
  | .scalar s => do
    guard (s.mayBe "bool")
    if s.text = "true" || s.text = "True" || s.text = "TRUE" then some true
    else if s.text = "false" || s.text = "False" || s.text = "FALSE" then some false
    else none
  | _ => none

/-- The node spells that there is no value. With a tag only the tag can tell so, and then the text
has to agree. -/
def isNull? : Node → Option Bool
  | .scalar { style := .plain, tag := none, text } => some (text = "" || isNullText text)
  | .scalar { style := .plain, tag := some tag, text } =>
    if tag = standardTag "null" then if isNullText text then some true else none
    else some false
  | _ => some false

/-- The 64-bit number that a node spells, if there is a value. -/
def optionalUInt64? (node : Node) : Option (Option UInt64) := do
  if ← node.isNull? then some none else node.uint64?.map some

end Node

/-! ### Rules -/

/-- The only value given for a key, if one is; none if there are several. -/
def single? (key : String) (entries : List (String × Node)) : Option (Option Node) :=
  match entries.filter fun e => e.1 = key with
  | [] => some none
  | [e] => some (some e.2)
  | _ => none

/-- The value of a rule, or the default where no value is given. -/
def valueOr {α : Type} (read? : Node → Option α) (default : α) : Option Node → Option α
  | some node => read? node
  | none => some default

/-- The rules that named values stand for. -/
def rulesOf? (entries : List (String × Node)) : Option Config := do
  let base := Config.homestead
  return {
    callStackLimit :=
      ← valueOr Node.uint64? base.callStackLimit (← single? "call_stack_limit" entries)
    noncePersistsOnFailure :=
      ← valueOr Node.flag? base.noncePersistsOnFailure
        (← single? "create_nonce_persists_on_failure" entries)
    contractLimit :=
      ← valueOr Node.optionalUInt64? base.contractLimit
        (← single? "create_contract_limit" entries)
    codeDepositNrg :=
      ← valueOr Node.uint64? base.codeDepositNrg (← single? "code_deposit_nrg" entries) }

/-- The rules of a document: a mapping with named keys, or nothing at all. -/
def rules? : Node → Option Config
  | .scalar { style := .plain, text := "", .. } => some .homestead
  | .mapping entries => do
    rulesOf? (← entries.mapM fun (key, value) => do return (← key.name?, value))
  | _ => none

end Yaml

/-- The rules of a YAML text. -/
def Config.ofYaml? (text : String) : Option Config := do
  Yaml.rules? (← Yaml.Node.ofText? text)

end MessageCalls

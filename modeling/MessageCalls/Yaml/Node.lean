import MessageCalls.Yaml.Layout
/-!
# MessageCalls.Yaml.Node

YAML documents as trees. `Node.ofTokens?` reads the only document of a list of tokens. It descends
with fuel. No token takes more than four steps of the descent, so that four times the number of
tokens and a little more is enough.
-/

namespace MessageCalls.Yaml

/-- A scalar with what its meaning depends on. -/
structure Scalar where
  style : Style
  /-- The tag, where one is given. -/
  tag : Option Bytes := none
  text : String

/-- A part of a document. -/
inductive Node
  | scalar (scalar : Scalar)
  | sequence (items : List Node)
  /-- Keys and values, in the order of writing; keys may be repeated. -/
  | mapping (entries : List (Node × Node))
  /-- A collection that stands elsewhere in the document. -/
  | elsewhere

namespace Node

/-- Nothing, where a node could stand. -/
def empty : Node := .scalar { style := .plain, text := "" }

end Node

/-! ### Tokens and names -/

/-- The tokens that are left, and what has been named before them. -/
structure Feed where
  tokens : List Token
  /-- The nodes that have names, the last one first: a name may be given again. -/
  named : List (List Char × Node) := []
  /-- The stems that the handles of tags stand for. -/
  stems : List (List Char × Bytes)

namespace Feed

/-- The next token is one of several. -/
def sees (f : Feed) (tokens : List Token) : Bool := f.tokens.head?.any tokens.contains

/-- The feed behind the next token. -/
def skip (f : Feed) : Feed := { f with tokens := f.tokens.tail }

/-- The feed behind a token, if it is the next one. -/
def skip? (f : Feed) (t : Token) : Option Feed := if f.sees [t] then some f.skip else none

/-- The node of a name. -/
def lookup? (f : Feed) (name : List Char) : Option Node := f.named.lookup name

end Feed

/-- What is said about a node in front of it. -/
structure Properties where
  /-- The name under which the node may stand elsewhere. -/
  name : Option (List Char) := none
  tag : Option Bytes := none

namespace Properties

/-- Nothing is said. -/
def isEmpty (p : Properties) : Bool := p.name.isNone && p.tag.isNone

/-- A node has the name that it was given. -/
def register (p : Properties) (node : Node) (f : Feed) : Feed :=
  match p.name with
  | some name => { f with named := (name, node) :: f.named }
  | none => f

end Properties

/-- The octets of a tag, if its handle is known. -/
def Feed.resolve? (f : Feed) : Tag → Option Bytes
  | .whole uri => some uri
  | .short handle suffix => (f.stems.lookup handle).map (· ++ suffix)

/-- The properties of the next node: a name and a tag, in either order. -/
def Feed.properties? (f : Feed) : Option (Properties × Feed) :=
  match f.tokens with
  | .anchor name :: .tag tag :: _ =>
    (f.resolve? tag).map fun tag => (⟨name, tag⟩, f.skip.skip)
  | .tag tag :: .anchor name :: _ =>
    (f.resolve? tag).map fun tag => (⟨name, tag⟩, f.skip.skip)
  | .anchor name :: _ => some (⟨name, none⟩, f.skip)
  | .tag tag :: _ => (f.resolve? tag).map fun tag => (⟨none, tag⟩, f.skip)
  | _ => some ({}, f)

/-- Properties without a node, which stand for an empty one. -/
def Properties.bare? (p : Properties) (f : Feed) : Option (Node × Feed) :=
  if p.isEmpty then none
  else
    let node := .scalar { style := .plain, tag := p.tag, text := "" }
    some (node, p.register node f)

/-! ### Nodes -/

/-- Where a node stands, which decides on the collections that it may be. -/
inductive Site
  /-- In a flow collection: flow collections only. -/
  | flow
  /-- On its own or as an item of a block sequence. -/
  | block
  /-- As a key or a value of a block mapping. The items of a sequence need no indentation there. -/
  | entry
  deriving Repr, DecidableEq

mutual

/-- A node. -/
def readNode : Nat → Site → Feed → Option (Node × Feed)
  | 0, _, _ => none
  | fuel + 1, site, f =>
    match f.tokens with
    | .alias name :: _ => (f.lookup? name).map fun node => (node, f.skip)
    | _ => do
      let (p, f) ← f.properties?
      let within := p.register .elsewhere f
      match f.tokens, site with
      | .scalar style text :: _, _ =>
        let node := .scalar { style, tag := p.tag, text := String.ofList text }
        return (node, p.register node f.skip)
      | .leftBracket :: _, _ =>
        (readFlowItems fuel true within.skip).map fun (items, f) => (.sequence items, f)
      | .leftBrace :: _, _ =>
        (readFlowEntries fuel true within.skip).map fun (entries, f) => (.mapping entries, f)
      | .dash :: _, .entry =>
        (readItems fuel false within).map fun (items, f) => (.sequence items, f)
      | _, .flow => p.bare? f
      | .sequenceBegins :: _, _ =>
        (readItems fuel true within.skip).map fun (items, f) => (.sequence items, f)
      | .mappingBegins :: _, _ =>
        (readEntries fuel within.skip).map fun (entries, f) => (.mapping entries, f)
      | _, _ => p.bare? f

/-- A node, or an empty one in front of some tokens. -/
def readUnless : Nat → Site → List Token → Feed → Option (Node × Feed)
  | 0, _, _, _ => none
  | fuel + 1, site, tokens, f => if f.sees tokens then some (.empty, f) else readNode fuel site f

/-- The value of a key, empty if it is missing or stands in front of some tokens. -/
def readValue : Nat → Site → List Token → Feed → Option (Node × Feed)
  | 0, _, _, _ => none
  | fuel + 1, site, tokens, f =>
    match f.skip? .value with
    | some f => readUnless fuel site tokens f
    | none => some (.empty, f)

/-- The items of a block sequence. If it is `indented` its end has a token. -/
def readItems : Nat → Bool → Feed → Option (List Node × Feed)
  | 0, _, _ => none
  | fuel + 1, indented, f =>
    match f.skip? .dash with
    | some f => do
      let (item, f) ← readUnless fuel .block [.dash, .key, .value, .blockEnds] f
      let (items, f) ← readItems fuel indented f
      return (item :: items, f)
    | none =>
      if indented then (f.skip? .blockEnds).map fun f => ([], f)
      else some ([], f)

/-- The entries of a block mapping, up to its end. -/
def readEntries : Nat → Feed → Option (List (Node × Node) × Feed)
  | 0, _ => none
  | fuel + 1, f =>
    match f.skip? .key with
    | some f => do
      let (key, f) ← readUnless fuel .entry [.key, .value, .blockEnds] f
      let (value, f) ← readValue fuel .entry [.key, .value, .blockEnds] f
      let (entries, f) ← readEntries fuel f
      return ((key, value) :: entries, f)
    | none => (f.skip? .blockEnds).map fun f => ([], f)

/-- The items of a flow sequence, up to its end. Behind the `first` of them a comma comes before
the next one. An item with a mark of a key is a mapping of one entry. -/
def readFlowItems : Nat → Bool → Feed → Option (List Node × Feed)
  | 0, _, _ => none
  | fuel + 1, first, f => do
    if f.sees [.rightBracket] then return ([], f.skip)
    let f ← if first then some f else f.skip? .comma
    if f.sees [.rightBracket] then return ([], f.skip)
    let (item, f) ←
      match f.skip? .key with
      | some f => readPair fuel f
      | none => readNode fuel .flow f
    let (items, f) ← readFlowItems fuel false f
    return (item :: items, f)

/-- An entry of a flow sequence behind the mark of its key. Where the key is missing the token in
its place counts as the key. -/
def readPair : Nat → Feed → Option (Node × Feed)
  | 0, _ => none
  | fuel + 1, f => do
    let (key, f) ←
      if f.sees [.value, .comma, .rightBracket] then some (.empty, f.skip)
      else readNode fuel .flow f
    let (value, f) ← readValue fuel .flow [.comma, .rightBracket] f
    return (.mapping [(key, value)], f)

/-- The entries of a flow mapping, up to its end. Behind the `first` of them a comma comes before
the next one. -/
def readFlowEntries : Nat → Bool → Feed → Option (List (Node × Node) × Feed)
  | 0, _, _ => none
  | fuel + 1, first, f => do
    if f.sees [.rightBrace] then return ([], f.skip)
    let f ← if first then some f else f.skip? .comma
    if f.sees [.rightBrace] then return ([], f.skip)
    let (key, value, f) ← readFlowEntry fuel f
    let (entries, f) ← readFlowEntries fuel false f
    return ((key, value) :: entries, f)

/-- An entry of a flow mapping. A node without a mark of a key is a key with an empty value. -/
def readFlowEntry : Nat → Feed → Option (Node × Node × Feed)
  | 0, _ => none
  | fuel + 1, f =>
    match f.skip? .key with
    | some f => do
      let (key, f) ← readUnless fuel .flow [.value, .comma, .rightBrace] f
      let (value, f) ← readValue fuel .flow [.comma, .rightBrace] f
      return (key, value, f)
    | none => (readNode fuel .flow f).map fun (key, f) => (key, .empty, f)

end

/-! ### Documents -/

/-- The tag of a kind of values that the format knows itself. -/
def standardTag (kind : String) : Bytes := octets ("tag:yaml.org,2002:" ++ kind).toList

/-- The stems that handles stand for where no directive gives them another one. -/
def usualStems : List (List Char × Bytes) :=
  [(['!'], octets ['!']), (['!', '!'], standardTag "")]

/-- The stems that the directives in front of a document give to handles, and the tokens behind
them. The version and the stem of a handle may be given once. -/
def directives? (version : Bool) (stems : List (List Char × Bytes)) :
    List Token → Option (List (List Char × Bytes) × List Token)
  | .directive .version :: rest => if version then none else directives? true stems rest
  | .directive (.stem handle uri) :: rest =>
    if (stems.lookup handle).isSome then none else directives? version ((handle, uri) :: stems) rest
  | tokens => some (stems, tokens)

/-- The node of the only document of a list of tokens; it is empty where there is no document. -/
def Node.ofTokens? (tokens : List Token) : Option Node := do
  let (stems, rest) ← directives? false [] tokens
  let feed : Feed := { tokens := rest, stems := stems ++ usualStems }
  let fuel := 4 * tokens.length + 16
  let (node, f) ←
    match feed.skip? .documentBegins, tokens with
    | some f, _ =>
      if f.tokens.isEmpty || f.sees [.documentEnds] then some (.empty, f)
      else readNode fuel .block f
    | none, .directive _ :: _ => none
    | none, [] => some (.empty, feed)
    | none, _ => readNode fuel .block feed
  guard (f.tokens.all (· = .documentEnds))
  return node

/-- The node of the only document of a text. -/
def Node.ofText? (text : String) : Option Node := do
  ofTokens? (← tokens? text)

end MessageCalls.Yaml

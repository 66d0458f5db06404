import MessageCalls.Bytes
/-!
# MessageCalls.Yaml.Token

The tokens of a document: its punctuation, its scalars, and the marks that layout stands for. A
block collection has no brackets; a token in front of its first entry and another behind its last
one stand where the indentation grows and falls.
-/

namespace MessageCalls.Yaml

/-- How a scalar is written. -/
inductive Style
  | plain
  | quoted
  /-- Set off as a block that keeps its line breaks. -/
  | literal
  /-- Set off as a block whose lines are joined. -/
  | folded
  deriving Repr, DecidableEq

/-- The tag of a node as it is written. -/
inductive Tag
  /-- All of it. -/
  | whole (uri : Bytes)
  /-- A handle, which stands for the stem of the tag, and the rest. -/
  | short (handle : List Char) (suffix : Bytes)
  deriving Repr, DecidableEq

/-- A line in front of a document. -/
inductive Directive
  /-- The version of the format, which is 1.1 or 1.2. -/
  | version
  /-- The stem that a handle stands for. -/
  | stem (handle : List Char) (uri : Bytes)
  deriving Repr, DecidableEq

/-- A token of a document. -/
inductive Token
  | directive (directive : Directive)
  /-- The mark `---`. -/
  | documentBegins
  /-- The mark `...`. -/
  | documentEnds
  /-- A block sequence begins. -/
  | sequenceBegins
  /-- A block mapping begins. -/
  | mappingBegins
  /-- The block collection ends that began last. -/
  | blockEnds
  /-- The mark of an item of a block sequence. -/
  | dash
  /-- A key begins. -/
  | key
  /-- The value of a key begins. -/
  | value
  | leftBracket
  | rightBracket
  | leftBrace
  | rightBrace
  | comma
  /-- A node that stands elsewhere, under the name of its anchor. -/
  | alias (name : List Char)
  /-- The name under which the node behind it stands elsewhere. -/
  | anchor (name : List Char)
  /-- The tag of the node behind it. -/
  | tag (tag : Tag)
  | scalar (style : Style) (text : List Char)
  deriving Repr, DecidableEq

end MessageCalls.Yaml

import MessageCalls.Yaml.Rules
/-!
# MessageCalls.Proofs.Yaml.Grammar

How a mapping of scalars may be written. The rules relate a text to what it says, and know nothing
of how it is read: a block mapping (`Entries`) has its keys in one column, a flow mapping
(`FlowEntries`) has braces and commas, and both leave room for comments, blank lines and values on
lines of their own. A scalar may be plain or quoted and go on over several lines (`InlineScalar`),
and in a block mapping it may be set off as a block (`BlockScalar`). A key that has no mark of its
own stands on one line with its colon, at most 1024 bytes before it (`ImplicitKey`).

The rules are those of a mapping by itself: scalars with a tag or a name, and marks and directives of
documents, have no place in it.

Some rules depend on what comes `behind` a text: a plain scalar ends where something else can begin.
The rules are for texts with one kind of the usual line breaks; `Document` is about any.
-/

namespace MessageCalls.Yaml

/-! ### Between tokens -/

/-- Spaces, and tabs where they count as blanks. -/
def Blanks (tabs : Bool) (cs : List Char) : Prop := ∀ c ∈ cs, c = ' ' ∨ tabs = true ∧ c = '\t'

/-- A comment up to the end of its line, or none. -/
inductive Comment : List Char → Prop
  | none : Comment []
  | text (h : ∀ c ∈ text, isBreak c = false) : Comment ('#' :: text)

/-- Lines with nothing but comments on them, and the blanks in front of what is `next`: a token in
some column, or none at the end of the text. Only in flow context tabs are blanks here. -/
inductive Lines (flow : Bool) : List Char → Option Nat → Prop
  | token (hblanks : Blanks flow blanks) : Lines flow blanks (some blanks.length)
  | finish (hblanks : Blanks flow blanks) (hcomment : Comment comment) :
      Lines flow (blanks ++ comment) none
  | line (hblanks : Blanks flow blanks) (hcomment : Comment comment) (hbreak : isBreak b = true)
      (hlines : Lines flow src next) : Lines flow (blanks ++ comment ++ b :: src) next

/-- The rest of a line behind a token, and the lines up to the next one. A comment is set off by a
blank. -/
inductive LineRest (flow tabs : Bool) : List Char → Option Nat → Prop
  | finish (hblanks : Blanks tabs blanks) (hcomment : Comment comment)
      (hapart : blanks = [] → comment = []) : LineRest flow tabs (blanks ++ comment) none
  | line (hblanks : Blanks tabs blanks) (hcomment : Comment comment)
      (hapart : blanks = [] → comment = []) (hbreak : isBreak b = true)
      (hlines : Lines flow src next) : LineRest flow tabs (blanks ++ comment ++ b :: src) next

/-! ### Between the words of a scalar -/

/-- Blank lines inside of a scalar, with their line breaks, and the indentation of the line behind
them. It is at least `indent` wide, and so far no tab counts as indentation. -/
inductive Wrapped (indent : Nat) : List Char → List Char → Prop
  | head (hblanks : Blanks true blanks) (htabs : '\t' ∉ blanks.take indent)
      (hwidth : indent ≤ blanks.length) : Wrapped indent blanks []
  | line (hblanks : Blanks true blanks) (htabs : '\t' ∉ blanks.take indent)
      (hbreak : isBreak b = true) (h : Wrapped indent src breaks) :
      Wrapped indent (blanks ++ b :: src) (b :: breaks)

/-- What stands between two words of a scalar, and what it means. Blanks stand for themselves. The
usual line break stands for a space, or for nothing in front of blank lines; others are kept. -/
inductive Spacing (indent : Nat) : List Char → List Char → Prop
  | blanks (hblanks : Blanks true blanks) : Spacing indent blanks blanks
  | folded (hblanks : Blanks true blanks) (h : Wrapped indent src breaks) :
      Spacing indent (blanks ++ '\n' :: src) (if breaks = [] then [' '] else breaks)
  | kept (hblanks : Blanks true blanks) (hbreak : isBreak b = true) (husual : b ≠ '\n')
      (h : Wrapped indent src breaks) : Spacing indent (blanks ++ b :: src) (b :: breaks)

/-! ### Plain and quoted scalars -/

/-- A plain scalar may go on with a character that comes after a space and in front of other text:
the character begins no comment, makes no key of the scalar, and has no meaning in the collection
around it. -/
structure GoesOn (flow : Bool) (space : List Char) (c : Char) (after : List Char) : Prop where
  isWord : isBlank c = false ∧ isBreak c = false
  noComment : c = '#' → space = []
  noKey : c = ':' → startsBlank after = false
  inFlow : flow = true → isFlowIndicator c = false ∧ isStrayColon flow c after = false

/-- A plain scalar behind its first character, and the text it stands for. -/
inductive PlainTail (flow : Bool) (indent : Nat) (behind : List Char) :
    List Char → List Char → Prop
  | done : PlainTail flow indent behind [] []
  | word (hspace : Spacing indent space spaced) (hc : GoesOn flow space c (src ++ behind))
      (h : PlainTail flow indent behind src text) :
      PlainTail flow indent behind (space ++ c :: src) (spaced ++ c :: text)

/-- A single-quoted scalar behind its opening quote. A quote inside is written twice. -/
inductive SingleTail : List Char → List Char → Prop
  | close (hspace : Spacing 0 space spaced) : SingleTail (space ++ ['\'']) spaced
  | word (hspace : Spacing 0 space spaced) (hword : isBlank c = false ∧ isBreak c = false)
      (hquote : c ≠ '\'') (h : SingleTail src text) :
      SingleTail (space ++ c :: src) (spaced ++ c :: text)
  | quote (hspace : Spacing 0 space spaced) (h : SingleTail src text) :
      SingleTail (space ++ '\'' :: '\'' :: src) (spaced ++ '\'' :: text)

/-- A character of a double-quoted scalar that is written with a backslash, by a letter or by its
number. -/
inductive Escape : List Char → Char → Prop
  | letter (h : escaped? b = some c) : Escape ['\\', b] c
  | number {digits : List Char}
      (hwidth : (mark, digits.length) ∈ [('x', 2), ('u', 4), ('U', 8)])
      (h : hexEscape? digits = some c) : Escape ('\\' :: mark :: digits) c

/-- What stands between two words of a double-quoted scalar. Behind an escaped line break the
blanks of the next line stand for nothing. -/
inductive Padding : Bool → List Char → List Char → Prop
  | spacing (h : Spacing 0 space spaced) : Padding false space spaced
  | joined (h : Wrapped 0 space breaks) : Padding true space breaks

/-- A double-quoted scalar behind its opening quote, or behind an escaped line break, which is
`joined` to what follows. -/
inductive DoubleTail : Bool → List Char → List Char → Prop
  | close (hspace : Padding joined space spaced) : DoubleTail joined (space ++ ['"']) spaced
  | word (hspace : Padding joined space spaced) (hword : isBlank c = false ∧ isBreak c = false)
      (hquote : c ≠ '"') (hslash : c ≠ '\\') (h : DoubleTail false src text) :
      DoubleTail joined (space ++ c :: src) (spaced ++ c :: text)
  | escape {written : List Char} (hspace : Padding joined space spaced) (hc : Escape written c)
      (h : DoubleTail false src text) :
      DoubleTail joined (space ++ written ++ src) (spaced ++ c :: text)
  | join (hspace : Padding joined space spaced) (hbreak : isBreak b = true)
      (h : DoubleTail true src text) :
      DoubleTail joined (space ++ '\\' :: b :: src) (spaced ++ text)

/-- A plain or a quoted scalar, which may go on over lines that are indented by `indent`. -/
inductive InlineScalar (flow : Bool) (indent : Nat) (behind : List Char) :
    List Char → Scalar → Prop
  | plain (hstart : startsPlain flow (c :: src ++ behind) = true) (hmark : isOrderMark c = false)
      (h : PlainTail flow indent behind src text) :
      InlineScalar flow indent behind (c :: src)
        { style := .plain, text := String.ofList (c :: text) }
  | single (h : SingleTail src text) :
      InlineScalar flow indent behind ('\'' :: src)
        { style := .quoted, text := String.ofList text }
  | double (h : DoubleTail false src text) :
      InlineScalar flow indent behind ('"' :: src)
        { style := .quoted, text := String.ofList text }

/-! ### Scalars set off as blocks -/

/-- Blank lines of a block, and their line breaks. -/
inductive BlankLines (indent : Nat) : List Char → List Char → Prop
  | nil : BlankLines indent [] []
  | line (hwidth : width ≤ indent) (hbreak : isBreak b = true)
      (h : BlankLines indent src breaks) :
      BlankLines indent (List.replicate width ' ' ++ b :: src) (b :: breaks)

/-- What comes behind a block is indented less. -/
inductive Outdented (indent : Nat) : List Char → Prop
  | finish (hwidth : width ≤ indent) : Outdented indent (List.replicate width ' ')
  | token (hwidth : width < indent) (hword : isBlank c = false ∧ isBreak c = false) :
      Outdented indent (List.replicate width ' ' ++ c :: rest)

/-- The lines of a block behind some line breaks, and the text they stand for. Of the first line the
start may have to tell the indentation; no blank can. -/
inductive TextLines (literal : Bool) (chomping : Chomping) (indent : Nat) (behind : List Char) :
    Bool → Breaks → List Char → List Char → Prop
  | finish {breaks : Breaks} {further : List Char} (hblank : BlankLines indent src further)
      (hbehind : Outdented indent behind) :
      TextLines literal chomping indent behind false breaks src
        ({ breaks with further }.last chomping)
  | line {tells : Bool} {breaks : Breaks} {further : List Char}
      (hblank : BlankLines indent blanks further) (htells : tells = true → isBlank c = false)
      (hline : ∀ d ∈ c :: line, isBreak d = false) (hbreak : isBreak b = true)
      (h : TextLines literal chomping indent behind false { first := [b], blank := isBlank c }
        src text) :
      TextLines literal chomping indent behind tells breaks
        (blanks ++ (List.replicate indent ' ' ++ c :: (line ++ b :: src)))
        ({ breaks with further }.text literal (isBlank c) ++ c :: (line ++ text))
  | cut {tells : Bool} {breaks : Breaks} {further : List Char}
      (hblank : BlankLines indent blanks further) (htells : tells = true → isBlank c = false)
      (hline : ∀ d ∈ c :: line, isBreak d = false) (hbehind : behind = []) :
      TextLines literal chomping indent behind tells breaks
        (blanks ++ (List.replicate indent ' ' ++ c :: line))
        ({ breaks with further }.text literal (isBlank c) ++ c :: line)

/-- The mark for what becomes of the last line breaks. -/
inductive ChompingMark : List Char → Chomping → Prop
  | clip : ChompingMark [] .clip
  | strip : ChompingMark ['-'] .strip
  | keep : ChompingMark ['+'] .keep

/-- The header of a block. -/
inductive HeaderText : List Char → BlockHeader → Prop
  | detected {chomping : Chomping} (h : ChompingMark src chomping) :
      HeaderText src { chomping }
  | digitFirst {chomping : Chomping} (hdigit : indentOf? digit = some width)
      (h : ChompingMark src chomping) :
      HeaderText (digit :: src) { indent := some width, chomping }
  | digitLast {chomping : Chomping} (hdigit : indentOf? digit = some width)
      (h : ChompingMark src chomping) :
      HeaderText (src ++ [digit]) { indent := some width, chomping }

/-- The body of a block in a mapping at a column. Its header or its first line tell how far it is
indented, or it has no lines that are not blank. -/
inductive BlockBody (literal : Bool) (n : Nat) (behind : List Char) :
    BlockHeader → List Char → List Char → Prop
  | fixed {chomping : Chomping}
      (h : TextLines literal chomping (n + width) behind false {} src text) :
      BlockBody literal n behind { indent := some width, chomping } src text
  | detected {chomping : Chomping} {indent : Nat} (hindent : n < indent)
      (h : TextLines literal chomping indent behind true {} src text) :
      BlockBody literal n behind { chomping } src text
  | blank {chomping : Chomping} {indent : Nat} {further : List Char}
      (h : BlankLines indent src further) (hbehind : Outdented (n + 1) behind) :
      BlockBody literal n behind { chomping } src (Breaks.last { further } chomping)

/-- A scalar that is set off as a block, as a value in a mapping at a column. -/
inductive BlockScalar (n : Nat) (behind : List Char) : List Char → Scalar → Prop
  | intro {asked : BlockHeader} (hheader : HeaderText header asked) (hblanks : Blanks true blanks)
      (hcomment : Comment comment) (hapart : blanks = [] → comment = []) (hbreak : isBreak b = true)
      (h : BlockBody literal n behind asked src text) :
      BlockScalar n behind
        ((if literal then '|' else '>') :: (header ++ (blanks ++ comment ++ b :: src)))
        { style := if literal then .literal else .folded, text := String.ofList text }

/-! ### Entries -/

/-- An entry of a mapping, as far as it is written out. -/
inductive Entry
  /-- A key with nothing about it, as it may stand in a flow mapping. -/
  | bare (key : Scalar)
  /-- A key with a mark, but without a colon. -/
  | marked (key : Scalar)
  /-- A key and a colon. The value may be missing. -/
  | full (key : Scalar) (value : Option Scalar)

namespace Entry

/-- The key of an entry. -/
def key : Entry → Scalar
  | .bare key | .marked key | .full key _ => key

/-- The value of an entry; it is an empty plain scalar where none is written. -/
def value : Entry → Scalar
  | .full _ (some value) => value
  | _ => { style := .plain, text := "" }

end Entry

/-- The number of bytes of a text. -/
def byteLength : List Char → Nat
  | [] => 0
  | c :: cs => c.utf8Size + byteLength cs

/-- A key without a mark, and the blanks in front of its colon. -/
structure ImplicitKey (flow : Bool) (behind src blanks : List Char) (key : Scalar) : Prop where
  scalar : InlineScalar flow 0 (blanks ++ ':' :: behind) src key
  oneLine : ∀ c ∈ src, isBreak c = false
  apart : Blanks true blanks
  reach : byteLength (src ++ blanks) ≤ 1024

/-! ### Block mappings -/

/-- What leads from a mark to a scalar in a mapping at a column: blanks, or lines, if the scalar is
indented further than the mapping. -/
inductive Lead (n : Nat) (tabs : Bool) : List Char → Prop
  | blanks (hblanks : Blanks tabs blanks) (hne : blanks ≠ []) : Lead n tabs blanks
  | lines (h : LineRest false tabs src (some column)) (hcolumn : n < column) : Lead n tabs src

/-- A key or a value in a block mapping at a column, from its mark to what is next in the mapping's
column. -/
inductive BlockNode (n : Nat) (tabs : Bool) (behind : List Char) :
    List Char → Option Scalar → Option Nat → Prop
  | empty (h : LineRest false tabs src next) : BlockNode n tabs behind src none next
  | inline {s : Scalar} (hlead : Lead n tabs lead)
      (hs : InlineScalar false (n + 1) (rest ++ behind) src s)
      (hrest : LineRest false true rest next) :
      BlockNode n tabs behind (lead ++ (src ++ rest)) (some s) next
  | block {s : Scalar} (hlead : Lead n tabs lead) (hs : BlockScalar n (rest ++ behind) src s)
      (hrest : Lines false rest next) :
      BlockNode n tabs behind (lead ++ (src ++ rest)) (some s) next

/-- Entries of a block mapping at a column, up to the end of the text. Behind a mark of a key, and
the colon that belongs to it, a tab is no blank. -/
inductive Entries (n : Nat) : Option Nat → List Char → List Entry → Prop
  | done : Entries n none [] []
  | implicit {key : Scalar} {value : Option Scalar} {entries : List Entry} {keySrc node : List Char}
      (hkey : ImplicitKey false (node ++ src) keySrc blanks key)
      (hvalue : BlockNode n true src node value next) (h : Entries n next src entries) :
      Entries n (some n) (keySrc ++ (blanks ++ ':' :: (node ++ src))) (.full key value :: entries)
  | explicit {key : Scalar} {value : Option Scalar} {entries : List Entry} {keySrc node : List Char}
      (hkey : BlockNode n false (':' :: (node ++ src)) keySrc (some key) (some n))
      (hvalue : BlockNode n false src node value next) (h : Entries n next src entries) :
      Entries n (some n) ('?' :: (keySrc ++ ':' :: (node ++ src))) (.full key value :: entries)
  | marked {key : Scalar} {entries : List Entry} {keySrc : List Char}
      (hkey : BlockNode n false src keySrc (some key) next) (h : Entries n next src entries) :
      Entries n (some n) ('?' :: (keySrc ++ src)) (.marked key :: entries)

/-! ### Flow mappings -/

/-- What may stand between two tokens of a flow mapping. -/
inductive FlowGap : List Char → Prop
  | blanks (h : Blanks true blanks) : FlowGap blanks
  | lines (h : LineRest true true src (some column)) : FlowGap src

/-- A key or a value in a flow mapping, with the gaps around it. -/
inductive FlowNode (behind : List Char) : List Char → Option Scalar → Prop
  | empty (h : FlowGap src) : FlowNode behind src none
  | scalar {s : Scalar} (hlead : FlowGap lead) (hs : InlineScalar true 0 (rest ++ behind) src s)
      (hrest : FlowGap rest) : FlowNode behind (lead ++ (src ++ rest)) (some s)

/-- An entry of a flow mapping. A colon behind a plain key is followed by a blank. -/
inductive FlowEntry (behind : List Char) : List Char → Entry → Prop
  | bare {key : Scalar} (hkey : InlineScalar true 0 (rest ++ behind) src key)
      (hrest : FlowGap rest) : FlowEntry behind (src ++ rest) (.bare key)
  | implicit {key : Scalar} {value : Option Scalar} {node : List Char}
      (hkey : ImplicitKey true (node ++ behind) src blanks key)
      (hcolon : key.style = .plain → startsBlank (node ++ behind) = true)
      (hvalue : FlowNode behind node value) :
      FlowEntry behind (src ++ (blanks ++ ':' :: node)) (.full key value)
  | explicit {key : Scalar} {value : Option Scalar} {node : List Char}
      (hkey : FlowNode (':' :: (node ++ behind)) src (some key))
      (hapart : startsBlank src = true)
      (hcolon : key.style = .plain → startsBlank (node ++ behind) = true)
      (hvalue : FlowNode behind node value) :
      FlowEntry behind ('?' :: (src ++ ':' :: node)) (.full key value)
  | marked {key : Scalar} (hkey : FlowNode behind src (some key))
      (hapart : startsBlank src = true) :
      FlowEntry behind ('?' :: src) (.marked key)

/-- Entries of a flow mapping, its closing brace, and the rest of the text. -/
inductive FlowEntries : List Char → List Entry → Prop
  | close (hlead : FlowGap lead) (hrest : LineRest false true rest none) :
      FlowEntries (lead ++ '\x7d' :: rest) []
  | last {entry : Entry} (hlead : FlowGap lead) (hentry : FlowEntry ('\x7d' :: rest) src entry)
      (hrest : LineRest false true rest none) :
      FlowEntries (lead ++ (src ++ '\x7d' :: rest)) [entry]
  | cons {entry : Entry} {entries : List Entry} (hlead : FlowGap lead)
      (hentry : FlowEntry (',' :: rest) src entry) (h : FlowEntries rest entries) :
      FlowEntries (lead ++ (src ++ ',' :: rest)) (entry :: entries)

/-! ### Documents -/

/-- A text that is a mapping: a block mapping, a flow mapping, or nothing but comments, which is the
block mapping without entries. -/
inductive MappingText : List Char → List Entry → Prop
  | nothing (h : Lines false src none) : MappingText src []
  | block {entries : List Entry} (hlead : Lines false lead (some n))
      (h : Entries n (some n) src entries) : MappingText (lead ++ src) entries
  | flow {entries : List Entry} (hlead : Lines false lead (some n)) (h : FlowEntries src entries) :
      MappingText (lead ++ '\x7b' :: src) entries

/-- No line of a text starts with a mark of a document. `head` tells whether the text starts at the
head of a line. -/
def isUnmarked (head : Bool) : List Char → Bool
  | [] => true
  | c :: rest => !(head && startsMark (c :: rest)) && isUnmarked (isBreak c) rest

/-- A text is a document that holds a mapping with such keys and values, in the order of writing. -/
structure Document (text : String) (entries : List (Scalar × Scalar)) : Prop where
  printable : text.toList.all isPrintable = true
  unmarked : isUnmarked true (plainBreaks text.toList) = true
  mapping : ∃ written, MappingText (plainBreaks text.toList) written ∧
    written.map (fun e => (e.key, e.value)) = entries

end MessageCalls.Yaml

import MessageCalls.Yaml.Cursor
/-!
# MessageCalls.Yaml.BlockText

Scalars set off as blocks: an indicator with a header, and then lines of text that are indented
further than the collection around them. Literal text keeps its line breaks. In folded text the
break between two lines reads as a space, unless one of them starts with a blank.
-/

namespace MessageCalls.Yaml

/-- What becomes of the line breaks behind the last line of a block. -/
inductive Chomping
  /-- None is kept. -/
  | strip
  /-- The break of the last line is kept. -/
  | clip
  /-- All are kept. -/
  | keep
  deriving Repr, DecidableEq

/-- The chomping that an indicator asks for. -/
def Chomping.ofChar? : Char → Option Chomping
  | '-' => some .strip
  | '+' => some .keep
  | _ => none

/-- What the header of a block asks for. -/
structure BlockHeader where
  /-- How far the text is indented in the collection around it; otherwise its first line and the
  blank lines before it tell. -/
  indent : Option Nat := none
  /-- What becomes of the last line breaks. -/
  chomping : Chomping := .clip

/-- The indentation that a digit asks for. -/
def indentOf? (c : Char) : Option Nat :=
  if '1' ≤ c ∧ c ≤ '9' then some (c.toNat - '0'.toNat) else none

/-- The header at the head of a text and the number of its characters: an indentation and a
chomping, in either order. What else stands there is left. -/
def BlockHeader.ofChars : List Char → BlockHeader × Nat
  | [] => ({}, 0)
  | c :: rest =>
    let next := rest.head?
    match Chomping.ofChar? c, indentOf? c with
    | some chomping, _ =>
      match next.bind indentOf? with
      | some n => (⟨some n, chomping⟩, 2)
      | none => (⟨none, chomping⟩, 1)
    | none, some n =>
      match next.bind Chomping.ofChar? with
      | some chomping => (⟨some n, chomping⟩, 2)
      | none => (⟨some n, .clip⟩, 1)
    | none, none => ({}, 0)

/-- The widest indentation of the blank lines at the head of a block and of the line behind them;
none if a tab stands where a line is indented. -/
def widest? (column width : Nat) : List Char → Option Nat
  | [] => some (max width column)
  | c :: rest =>
    if c = ' ' then widest? (column + 1) width rest
    else if c = '\t' then none
    else if isBreak c then widest? 0 (max width column) rest
    else some (max width column)

/-- The line breaks since the last line of a block. -/
structure Breaks where
  /-- The break that ended the line. -/
  first : List Char := []
  /-- The breaks of the blank lines behind it. -/
  further : List Char := []
  /-- The line started with a blank. -/
  blank : Bool := false

namespace Breaks

/-- The text of the breaks in front of a line, which may start with a `blank`. -/
def text (b : Breaks) (literal blank : Bool) : List Char :=
  if !literal && b.first = ['\n'] && !b.blank && !blank then
    if b.further.isEmpty then [' '] else b.further
  else b.first ++ b.further

/-- The text of the breaks behind the last line. -/
def last (b : Breaks) : Chomping → List Char
  | .strip => []
  | .clip => b.first
  | .keep => b.first ++ b.further

end Breaks

/-- The lines of a block from a place on, and the place behind them. `inside` tells that the place
is inside of a line; otherwise it is in its indentation, which holds no tab. -/
def blockLines (literal : Bool) (chomping : Chomping) (indent : Nat) (p : Place) (inside : Bool)
    (breaks : Breaks) : List Char → Option (List Char × Cursor)
  | [] => some (breaks.last chomping, ⟨p, []⟩)
  | c :: rest =>
    if isBreak c then
      let breaks :=
        if inside then { breaks with first := [c] }
        else { breaks with further := breaks.further ++ [c] }
      blockLines literal chomping indent p.nextLine false breaks rest
    else if inside then
      (blockLines literal chomping indent (p.past c) true breaks rest).map fun (text, behind) =>
        (c :: text, behind)
    else if p.column < indent then
      if c = ' ' then blockLines literal chomping indent (p.past c) false breaks rest
      else if c = '\t' then none
      else some (breaks.last chomping, ⟨p, c :: rest⟩)
    else
      (blockLines literal chomping indent (p.past c) true { blank := isBlank c } rest).map
        fun (text, behind) => (breaks.text literal (isBlank c) ++ c :: text, behind)

/-- The text of a block whose indicator has been read, in a collection at a column or in none. -/
def blockText (literal : Bool) (column : Option Nat) (c : Cursor) :
    Option (List Char × Cursor) := do
  let (header, length) := BlockHeader.ofChars c.rest
  let c ← (c.advance length).nextLine?
  let indent ←
    match header.indent with
    | some n => some (column.getD 0 + n)
    | none =>
      let least := max 1 (column.elim 0 (· + 1))
      (widest? c.column 0 c.rest).map (max least)
  blockLines literal header.chomping indent c.toPlace false {} c.rest

end MessageCalls.Yaml

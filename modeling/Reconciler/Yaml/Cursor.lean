import Reconciler.Fault

/-!
# Positions in a manifest

A cursor is a place in the text of a manifest. Indentation decides the structure of a
manifest, so a cursor keeps its line and column beside the text that is still ahead. Past
the end every character reads as `'\x00'`, which no admissible text contains.
-/

namespace Reconciler.Yaml

/-- Whether a character ends a line. -/
def isBreak (c : Char) : Bool :=
  c == '\n' || c == '\r' || c == '\x85' || c == '\u2028' || c == '\u2029'

/-- The character that stands for the end of the text. -/
def endMark : Char := '\x00'

/-- Whether a line ends here. -/
def isLineEnd (c : Char) : Bool := c == endMark || isBreak c

/-- A space, a tab, or the end of a line. -/
def isGap (c : Char) : Bool := c == ' ' || c == '\t' || isLineEnd c

/-- A space or the end of a line. -/
def isSpaceOrEnd (c : Char) : Bool := c == ' ' || isLineEnd c

/-- A space or a tab. -/
def isSpaceOrTab (c : Char) : Bool := c == ' ' || c == '\t'

/-- The characters of names of anchors, handles and directives. -/
def isNameChar (c : Char) : Bool :=
  ('0' ≤ c && c ≤ '9') || ('A' ≤ c && c ≤ 'Z') || ('a' ≤ c && c ≤ 'z') || c == '-' || c == '_'

/-- A place in a text. -/
structure Cursor where
  /-- The text ahead. -/
  rest : List Char
  index : Nat := 0
  line : Nat := 0
  column : Nat := 0
  deriving Inhabited

namespace Cursor

/-- The character some places ahead. -/
def peekAt (cursor : Cursor) (ahead : Nat) : Char := cursor.rest.getD ahead endMark

/-- The next character. -/
def peek (cursor : Cursor) : Char := cursor.peekAt 0

/-- Move over one character. A carriage return before a line feed belongs to the line feed,
and a byte order mark takes no column. -/
def step (cursor : Cursor) : Cursor :=
  match cursor.rest with
  | [] => cursor
  | c :: rest =>
    if isBreak c && !(c == '\r' && rest.head? == some '\n') then
      { rest, index := cursor.index + 1, line := cursor.line + 1, column := 0 }
    else
      { rest, index := cursor.index + 1, line := cursor.line
        column := if c == '\uFEFF' then cursor.column else cursor.column + 1 }

/-- Move over a number of characters. -/
def advance (cursor : Cursor) : Nat → Cursor
  | 0 => cursor
  | count + 1 => cursor.step.advance count

/-- Whether a marker between documents starts here: three dashes or three points with a gap
after them. -/
def atMarker (cursor : Cursor) : Bool :=
  let marker := cursor.rest.take 3
  (marker == ['-', '-', '-'] || marker == ['.', '.', '.']) && isGap (cursor.peekAt 3)

end Cursor

/-- Why a text cannot be read: it does not have the form of a manifest, or a value in it is
impossible. -/
inductive Flaw where
  | form
  | fault (fault : Fault)
  deriving Inhabited

/-- Steps that read text from a cursor. -/
abbrev Scanner := StateT Cursor (Except Flaw)

namespace Scanner

/-- The next character. -/
def peek : Scanner Char := return (← get).peek

/-- The character some places ahead. -/
def peekAt (ahead : Nat) : Scanner Char := return (← get).peekAt ahead

/-- Move over a number of characters. -/
def skip (count : Nat) : Scanner Unit := modify fun cursor => cursor.advance count

/-- Take the characters ahead for which a test holds. -/
def takeWhile (test : Char → Bool) : Scanner (List Char) := do
  let taken := (← get).rest.takeWhile test
  skip taken.length
  return taken

/-- Move over the characters ahead for which a test holds. -/
def skipWhile (test : Char → Bool) : Scanner Unit := do
  let _ ← takeWhile test

/-- Move over the spaces ahead. -/
def skipSpaces : Scanner Unit := skipWhile fun c => c == ' '

/-- The text does not have the form of a manifest. -/
def flawed : Scanner α := throw .form

/-- Go on only if a condition holds. -/
def require (condition : Bool) : Scanner Unit := if condition then pure () else flawed

/-- A bound on the steps ahead: each takes at least one character. -/
def bound : Scanner Nat := return (← get).rest.length + 1

/-- Take one line break, if one is ahead. Breaks of all kinds count as a line feed, except
the two separators of lines and paragraphs, which stay as they are. -/
def lineBreak : Scanner (List Char) := do
  let c ← peek
  if c == '\r' && (← peekAt 1) == '\n' then
    skip 2
    return ['\n']
  else if c == '\r' || c == '\n' || c == '\x85' then
    skip 1
    return ['\n']
  else if isBreak c then
    skip 1
    return [c]
  else return []

/-- Move over the rest of a line that may hold nothing but a comment. -/
def finishLine : Scanner Unit := do
  skipSpaces
  if (← peek) == '#' then skipWhile fun c => !isBreak c
  require (isLineEnd (← peek))
  let _ ← lineBreak

end Scanner

end Reconciler.Yaml

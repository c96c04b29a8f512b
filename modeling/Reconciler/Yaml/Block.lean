import Reconciler.Text.Digit
import Reconciler.Yaml.Cursor

/-!
# Text in a block

A block of lines that are indented more than the node to which they belong is a text. It is
kept line by line after `|`, and folded after `>`: there a single break between two lines
that do not start with a blank is a space. What becomes of the breaks at the end is said in
the head of the block.
-/

namespace Reconciler.Yaml.Scanner

/-- What becomes of the line breaks at the end of a block: all but the first go, or all of
them stay, or all of them go. -/
inductive Ending where
  | clip
  | keep
  | strip
  deriving DecidableEq

/-- How a block ends by the mark in its head, if the next character is such a mark. -/
def ending? : Scanner (Option Ending) := do
  match ← peek with
  | '+' =>
    skip 1
    return some .keep
  | '-' =>
    skip 1
    return some .strip
  | _ => return none

/-- The indentation that the head of a block states, if the next character is a digit. -/
def increment? : Scanner (Option Nat) := do
  let c ← peek
  if Text.isAsciiDigit c then
    require (c != '0')
    skip 1
    return some (c.toNat - '0'.toNat)
  else return none

/-- The head of a block: how it ends, and its indentation if stated, in either order. -/
def blockHead : Scanner (Ending × Option Nat) := do
  let head ← match ← ending? with
    | some ending => pure (ending, ← increment?)
    | none => match ← increment? with
      | some increment => pure ((← ending?).getD .clip, some increment)
      | none => pure (.clip, none)
  require (isSpaceOrEnd (← peek))
  return head

/-- Move over spaces, but not beyond a column. -/
def skipIndent (column : Nat) : Scanner Unit := do
  let cursor ← get
  let spaces := (cursor.rest.takeWhile fun c => c == ' ').length
  skip (min spaces (column - cursor.column))

/-- The breaks of the empty lines ahead, and the indentation of the line after them. -/
def blockBreaks (indent : Nat) : Nat → Scanner (List Char)
  | 0 => return []
  | fuel + 1 => do
    skipIndent indent
    match ← lineBreak with
    | [] => return []
    | taken => return taken ++ (← blockBreaks indent fuel)

/-- The breaks of the empty lines ahead, and the greatest column that spaces reach. -/
def blockIndent : Nat → Nat → Scanner (List Char × Nat)
  | 0, deepest => return ([], deepest)
  | fuel + 1, deepest => do
    let spaces ← takeWhile fun c => c == ' '
    let column := (← get).column
    let deepest := if spaces.isEmpty then deepest else max deepest column
    match ← lineBreak with
    | [] => return ([], deepest)
    | taken =>
      let (more, deepest) ← blockIndent fuel deepest
      return (taken ++ more, deepest)

/-- Whether a line of the block starts here. -/
def atBlockLine (indent : Nat) : Scanner Bool := do
  let cursor ← get
  return cursor.column == indent && cursor.peek != endMark

/-- The text of a block, the break after its last line, and the breaks of the empty lines
after that. -/
structure BlockText where
  text : List Char := []
  lastBreak : List Char := []
  emptyLines : List Char := []

/-- The lines of a block from the start of one of them; `breaks` are those before it. -/
def blockLines (folded : Bool) (indent : Nat) : Nat → List Char → Scanner BlockText
  | 0, _ => return {}
  | fuel + 1, breaks => do
    let first ← peek
    let line ← takeWhile fun c => !isLineEnd c
    let lastBreak ← lineBreak
    let emptyLines ← blockBreaks indent (← bound)
    if ← atBlockLine indent then
      let next ← peek
      let joint :=
        if folded && lastBreak == ['\n'] && !isSpaceOrTab first && !isSpaceOrTab next then
          (if emptyLines.isEmpty then [' '] else [])
        else lastBreak
      let rest ← blockLines folded indent fuel emptyLines
      return { rest with text := breaks ++ line ++ joint ++ rest.text }
    else return { text := breaks ++ line, lastBreak, emptyLines }

/-- A text in a block within a node that is indented as given. -/
def block (indent : Int) : Scanner String := do
  let folded := (← peek) == '>'
  skip 1
  let (ending, increment) ← blockHead
  finishLine
  let least := max 1 (indent + 1).toNat
  let (breaks, indent) ← match increment with
    | some increment => do
      let indent := least + increment - 1
      pure (← blockBreaks indent (← bound), indent)
    | none => do
      let (breaks, deepest) ← blockIndent (← bound) 0
      pure (breaks, max least deepest)
  let content ←
    if ← atBlockLine indent then blockLines folded indent (← bound) breaks
    else pure { emptyLines := breaks }
  return String.ofList (content.text ++
    (if ending = .strip then [] else content.lastBreak) ++
    (if ending = .keep then content.emptyLines else []))

end Reconciler.Yaml.Scanner

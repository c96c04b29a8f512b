import Reconciler.Yaml.Cursor

/-!
# Plain text

Text without quotes goes on as long as nothing in it could be structure: it ends before a
colon or a number sign that stands apart, before a mark of an enclosing flow collection, and
before a line that is not indented more than the node around it.
-/

namespace Reconciler.Yaml.Scanner

/-- Whether plain text can start with a character before another one. -/
def startsPlain (inFlow : Bool) (c next : Char) : Bool :=
  !(isGap c || "-?:,[]\x7b\x7d#&*!|>'\"%@\x60".toList.contains c) ||
    (!isGap next && (c == '-' || (!inFlow && (c == '?' || c == ':'))))

/-- The marks of flow collections that end plain text within one. -/
def isFlowMark (c : Char) : Bool :=
  c == ',' || c == '?' || c == '[' || c == ']' || c == '{' || c == '}'

/-- The plain characters at the start of a text. -/
def plainPart (inFlow : Bool) : List Char → List Char
  | [] => []
  | c :: rest =>
    let next := rest.headD endMark
    if isGap c || (c == ':' && (isGap next || (inFlow && isFlowMark next && next != '?'))) ||
        (inFlow && isFlowMark c) then []
    else c :: plainPart inFlow rest

/-- The breaks of empty lines within plain text; nothing if a marker between documents
follows one of them. -/
def plainBreaks : Nat → Scanner (Option (List Char))
  | 0 => return some []
  | fuel + 1 => do
    skipSpaces
    match ← lineBreak with
    | [] => return some []
    | taken =>
      if (← get).atMarker then return none
      return (← plainBreaks fuel).map (taken ++ ·)

/-- The blanks between two parts of plain text, and whether a line ends in them. -/
def plainBlanks : Scanner (List Char × Bool) := do
  let spaces ← takeWhile fun c => c == ' '
  match ← lineBreak with
  | [] => return (spaces, false)
  | taken =>
    if (← get).atMarker then return ([], true)
    match ← plainBreaks (← bound) with
    | none => return ([], true)
    | some more =>
      if taken != ['\n'] then return (taken ++ more, true)
      else if more.isEmpty then return ([' '], true)
      else return (more, true)

/-- The parts of plain text from the start of one of them, given the blanks before it and
whether a line has ended in these. The result says whether a line has ended since the last
part. -/
def plainParts (inFlow : Bool) (indent : Int) :
    Nat → List Char → Bool → Scanner (List Char × Bool)
  | 0, _, ended => return ([], ended)
  | fuel + 1, blanks, ended => do
    let cursor ← get
    let part := if cursor.peek == '#' then [] else plainPart inFlow cursor.rest
    if part.isEmpty then return ([], ended)
    skip part.length
    let (next, ended) ← plainBlanks
    let cursor ← get
    if next.isEmpty || cursor.peek == '#' || (!inFlow && cursor.column < indent) then
      return (blanks ++ part, ended)
    else
      let (rest, ended) ← plainParts inFlow indent fuel next ended
      return (blanks ++ part ++ rest, ended)

/-- Plain text within a node that is indented as given, and whether a line has ended after
it. -/
def plain (inFlow : Bool) (indent : Int) : Scanner (String × Bool) := do
  let (chars, ended) ← plainParts inFlow (indent + 1) (← bound) [] false
  return (String.ofList chars, ended)

end Reconciler.Yaml.Scanner

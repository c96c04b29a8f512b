import Reconciler.Yaml.Block
import Reconciler.Yaml.Name
import Reconciler.Yaml.Plain
import Reconciler.Yaml.Quoted

/-!
# Cutting a manifest into tokens

What a mark means depends on what came before it: the columns at which block collections
started, how many flow collections are open, and whether a key may start here. A key without
a mark of its own is only recognized by the colon after it. So each place where one could
start is remembered with the number of the next token, and when the colon comes, the tokens
that the key needs are inserted there.
-/

namespace Reconciler.Yaml

/-- A place where a key may have started. -/
structure PossibleKey where
  /-- The number of the token with which the key starts. -/
  number : Nat
  /-- Whether nothing but a key can stand there. -/
  required : Bool
  index : Nat
  line : Nat
  column : Nat
  deriving Inhabited

/-- What is known while a text is cut into tokens. -/
structure ScanState where
  cursor : Cursor
  /-- How many flow collections are open. -/
  flow : Nat := 0
  /-- The column of the innermost block collection, and of those around it. -/
  indent : Int := -1
  outer : List Int := []
  /-- Whether a key without a mark may start here. -/
  allowsKey : Bool := true
  /-- The place of a possible key for each number of open flow collections. -/
  keys : List (Nat × PossibleKey) := []
  /-- The tokens found so far, the latest one first, and their number. -/
  tokens : List Token := []
  count : Nat := 0
  deriving Inhabited

/-- Steps that find tokens. -/
abbrev Lexer := StateT ScanState (Except Flaw)

namespace Lexer

/-- Read text at the cursor. -/
def read (scanner : Scanner α) : Lexer α := do
  let (result, cursor) ← scanner (← get).cursor
  modify fun s => { s with cursor }
  return result

/-- The text does not have the form of a manifest. -/
def flawed : Lexer α := throw .form

/-- Go on only if a condition holds. -/
def require (condition : Bool) : Lexer Unit := if condition then pure () else flawed

/-- Add a token. -/
def emit (token : Token) : Lexer Unit :=
  modify fun s => { s with tokens := token :: s.tokens, count := s.count + 1 }

/-- Insert a token so that it gets a given number. -/
def insert (number : Nat) (token : Token) : Lexer Unit :=
  modify fun s =>
    { s with tokens := s.tokens.insertIdx (s.count - number) token, count := s.count + 1 }

/-- Say whether a key may start at the next token. -/
def allowKey (allowed : Bool) : Lexer Unit := modify fun s => { s with allowsKey := allowed }

/-- Whether the cursor is within a flow collection. -/
def inFlow : Lexer Bool := return (← get).flow != 0

/-! ### Block collections -/

/-- End the block collections that start right of a column. The bound is the number of
collections that are open. -/
def closeTo (column : Int) : Nat → Lexer Unit
  | 0 => pure ()
  | fuel + 1 => do
    let s ← get
    if column < s.indent then
      set { s with indent := s.outer.headD (-1), outer := s.outer.tail }
      emit .blockEnd
      closeTo column fuel

/-- End the block collections that start right of a column; within flow collections
indentation means nothing. -/
def close (column : Int) : Lexer Unit := do
  if !(← inFlow) then closeTo column ((← get).outer.length + 1)

/-- Start a block collection at a column, if it is right of the innermost one. -/
def opens (column : Nat) : Lexer Bool := do
  let s ← get
  if s.indent < column then
    set { s with indent := column, outer := s.indent :: s.outer }
    return true
  else return false

/-! ### Possible keys -/

/-- A key without a mark is at most this long. -/
def maxKeyLength : Nat := 1024

/-- Forget the possible keys that can no longer be keys: they would have ended on their line
and within the permitted length. -/
def dropStale : Lexer Unit := do
  let s ← get
  let isStale (key : PossibleKey) : Bool :=
    key.line != s.cursor.line || maxKeyLength < s.cursor.index - key.index
  require !(s.keys.any fun entry => isStale entry.2 && entry.2.required)
  set { s with keys := s.keys.filter fun entry => !isStale entry.2 }

/-- The possible key among the open flow collections. -/
def possibleKey? : Lexer (Option PossibleKey) := do
  let s ← get
  return s.keys.lookup s.flow

/-- Forget the possible key. -/
def forgetKey : Lexer Unit :=
  modify fun s => { s with keys := s.keys.filter fun entry => entry.1 != s.flow }

/-- Forget the possible key, which must not have been required. -/
def dropKey : Lexer Unit := do
  match ← possibleKey? with
  | some key => require !key.required
  | none => pure ()
  forgetKey

/-- Remember that the next token may start a key. -/
def saveKey : Lexer Unit := do
  if (← get).allowsKey then
    dropKey
    let s ← get
    let key : PossibleKey := {
      number := s.count
      required := s.flow == 0 && s.indent == s.cursor.column
      index := s.cursor.index
      line := s.cursor.line
      column := s.cursor.column }
    set { s with keys := (s.flow, key) :: s.keys }

/-! ### Tokens -/

/-- Move to the next token: over blanks, comments and line breaks. After a break outside
flow collections a key may start. -/
def toNextToken : Nat → Lexer Unit
  | 0 => pure ()
  | fuel + 1 => do
    let ended ← read do
      if (← get).index == 0 && (← Scanner.peek) == '\uFEFF' then Scanner.skip 1
      Scanner.skipSpaces
      if (← Scanner.peek) == '#' then Scanner.skipWhile fun c => !isBreak c
      return !(← Scanner.lineBreak).isEmpty
    if ended then
      if !(← inFlow) then allowKey true
      toNextToken fuel

/-- A token that is written as some characters. -/
def mark (width : Nat) (token : Token) : Lexer Unit := do
  read (Scanner.skip width)
  emit token

/-- End all block collections before a token that belongs to no document. -/
def leaveDocument : Lexer Unit := do
  close (-1)
  dropKey
  allowKey false

/-- The end of the text. -/
def endOfStream : Lexer Unit := do
  leaveDocument
  modify fun s => { s with keys := [] }
  emit .streamEnd

/-- The start of a flow collection, which may be a key. -/
def startFlow (token : Token) : Lexer Unit := do
  saveKey
  modify fun s => { s with flow := s.flow + 1 }
  allowKey true
  mark 1 token

/-- The end of a flow collection; there must be one. -/
def endFlow (token : Token) : Lexer Unit := do
  require (← inFlow)
  dropKey
  modify fun s => { s with flow := s.flow - 1 }
  allowKey false
  mark 1 token

/-- A comma. -/
def entryOfFlow : Lexer Unit := do
  allowKey true
  dropKey
  mark 1 .flowEntry

/-- A dash that starts an item of a block sequence. -/
def entryOfBlock : Lexer Unit := do
  if !(← inFlow) then
    require (← get).allowsKey
    if ← opens (← get).cursor.column then emit .blockSequenceStart
  allowKey true
  dropKey
  mark 1 .blockEntry

/-- A question mark that starts a key. -/
def markedKey : Lexer Unit := do
  let inFlow ← inFlow
  if !inFlow then
    require (← get).allowsKey
    if ← opens (← get).cursor.column then emit .blockMappingStart
  allowKey !inFlow
  dropKey
  mark 1 .key

/-- A colon. If a key is possible, it has now been found; else the key is empty or has a
mark of its own. -/
def value : Lexer Unit := do
  let inFlow ← inFlow
  match ← possibleKey? with
  | some key =>
    forgetKey
    insert key.number .key
    if !inFlow then
      if ← opens key.column then insert key.number .blockMappingStart
    allowKey false
  | none =>
    if !inFlow then
      require (← get).allowsKey
      if ← opens (← get).cursor.column then emit .blockMappingStart
    allowKey !inFlow
    dropKey
  mark 1 .value

/-- A token that may be or start a key. -/
def keyLike (scanner : Scanner Token) : Lexer Unit := do
  saveKey
  allowKey false
  emit (← read scanner)

/-- Text in a block. A key may start after it. -/
def blockText : Lexer Unit := do
  allowKey true
  dropKey
  emit (.scalar (← read (Scanner.block (← get).indent)) false)

/-- Plain text. A key may start after it if a line has ended. -/
def plainText : Lexer Unit := do
  saveKey
  let (text, ended) ← read (Scanner.plain (← inFlow) (← get).indent)
  allowKey ended
  emit (.scalar text true)

/-- Find the next token, or tokens. -/
def next : Lexer Unit := do
  toNextToken (← read Scanner.bound)
  dropStale
  let cursor := (← get).cursor
  close cursor.column
  let inFlow ← inFlow
  let c := cursor.peek
  let atStart := cursor.column == 0
  let standsApart := isGap (cursor.peekAt 1)
  if c == endMark then endOfStream
  else if c == '%' && atStart then
    leaveDocument
    emit (.directive (← read Scanner.directive))
  else if c == '-' && atStart && cursor.atMarker then
    leaveDocument
    mark 3 .documentStart
  else if c == '.' && atStart && cursor.atMarker then
    leaveDocument
    mark 3 .documentEnd
  else if c == '[' then startFlow .flowSequenceStart
  else if c == '{' then startFlow .flowMappingStart
  else if c == ']' then endFlow .flowSequenceEnd
  else if c == '}' then endFlow .flowMappingEnd
  else if c == ',' then entryOfFlow
  else if c == '-' && standsApart then entryOfBlock
  else if c == '?' && (inFlow || standsApart) then markedKey
  else if c == ':' && (inFlow || standsApart) then value
  else if c == '*' then keyLike (return .alias (← Scanner.anchorName))
  else if c == '&' then keyLike (return .anchor (← Scanner.anchorName))
  else if c == '!' then keyLike (return .tag (← Scanner.tag))
  else if (c == '|' || c == '>') && !inFlow then blockText
  else if c == '\'' || c == '"' then keyLike (return .scalar (← Scanner.quoted) false)
  else if Scanner.startsPlain inFlow c (cursor.peekAt 1) then plainText
  else flawed

end Lexer

/-- The tokens of a text up to its end or up to the flaw that stops them. -/
structure Tokens where
  tokens : List Token
  flaw : Option Flaw
  deriving Inhabited

/-- Find tokens from a state. Each step takes at least one character, so the length of the
text bounds the steps. -/
def scanFrom : Nat → ScanState → Tokens
  | 0, state => ⟨state.tokens.reverse, none⟩
  | fuel + 1, state =>
    match Lexer.next state with
    | .error flaw => ⟨state.tokens.reverse, some flaw⟩
    | .ok (_, next) =>
      match next.tokens.head? with
      | some .streamEnd => ⟨next.tokens.reverse, none⟩
      | _ => scanFrom fuel next

/-- The tokens of a text. -/
def scan (text : List Char) : Tokens := scanFrom (text.length + 1) { cursor := { rest := text } }

end Reconciler.Yaml

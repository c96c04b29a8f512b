import Reconciler.Text.Hex
import Reconciler.Text.Integer
import Reconciler.Yaml.Token

/-!
# Names, tags and directives

The parts of a manifest that are neither structure nor content: names by which one node is
referred to at another place, tags that say what a node is, and the directives before a
document.
-/

namespace Reconciler.Yaml.Scanner

/-- A name of at least one character. -/
def name : Scanner (List Char) := do
  let chars ← takeWhile isNameChar
  require !chars.isEmpty
  return chars

/-- The name of an anchor or an alias, after its mark. -/
def anchorName : Scanner String := do
  skip 1
  let chars ← name
  let c ← peek
  require (isGap c || "?:,]\x7d%@\x60".toList.contains c)
  return String.ofList chars

/-- The handle of a tag: an exclamation mark alone, or two of them with a name between
them that may be empty. -/
def tagHandle : Scanner String := do
  require ((← peek) == '!')
  skip 1
  if (← peek) == ' ' then return "!"
  let chars ← takeWhile isNameChar
  require ((← peek) == '!')
  skip 1
  return String.ofList ('!' :: chars ++ ['!'])

/-- The characters of a tag that stand for themselves. -/
def isTagChar (c : Char) : Bool :=
  isNameChar c || ";/?:@&=+$,.!~*'()[]".toList.contains c

/-- The bytes of the escapes ahead, each a percent sign and two digits. -/
def escapedBytes : Nat → Scanner (List UInt8)
  | 0 => return []
  | fuel + 1 => do
    if (← peek) != '%' then return []
    match Text.readHex [← peekAt 1, ← peekAt 2] with
    | some byte =>
      skip 3
      return UInt8.ofNat byte :: (← escapedBytes fuel)
    | none => flawed

/-- The text that bytes spell. -/
def spelled (bytes : List UInt8) : Scanner (List Char) :=
  match String.fromUTF8? ⟨bytes.toArray⟩ with
  | some text => return text.toList
  | none => flawed

/-- The parts of a tag: characters, and escapes of further ones. -/
def tagParts : Nat → Scanner (List Char)
  | 0 => return []
  | fuel + 1 => do
    let chars ← takeWhile isTagChar
    if (← peek) == '%' then
      let escaped ← spelled (← escapedBytes (← bound))
      return chars ++ escaped ++ (← tagParts fuel)
    else return chars

/-- The text of a tag or of what a handle stands for; it is not empty. -/
def tagUri : Scanner String := do
  let chars ← tagParts (← bound)
  require !chars.isEmpty
  return String.ofList chars

/-- The tag of a node. It is written out between angles, or empty, or starts with a
handle. -/
def tag : Scanner TagText := do
  let c ← peekAt 1
  let tag ←
    if c == '<' then do
      skip 2
      let suffix ← tagUri
      require ((← peek) == '>')
      skip 1
      pure ⟨none, suffix⟩
    else if isGap c then do
      skip 1
      pure ⟨none, "!"⟩
    else do
      let ahead := ((← get).rest.drop 1).takeWhile fun c => !isSpaceOrEnd c
      if ahead.contains '!' then
        let handle ← tagHandle
        pure ⟨some handle, ← tagUri⟩
      else
        skip 1
        pure ⟨some "!", ← tagUri⟩
  require (isSpaceOrEnd (← peek))
  return tag

/-- A number in a version. -/
def versionNumber : Scanner Nat := do
  let digits ← takeWhile Text.isAsciiDigit
  require !digits.isEmpty
  match Text.readNatural digits with
  | some number => return number
  | none => throw (.fault .malformed)

/-- A directive, with the rest of its line. -/
def directive : Scanner Directive := do
  skip 1
  let word ← name
  require (isSpaceOrEnd (← peek))
  let directive ← match String.ofList word with
    | "YAML" => do
      skipSpaces
      let major ← versionNumber
      require ((← peek) == '.')
      skip 1
      let _ ← versionNumber
      require (isSpaceOrEnd (← peek))
      pure (.version major)
    | "TAG" => do
      skipSpaces
      let handle ← tagHandle
      require ((← peek) == ' ')
      skipSpaces
      let meaning ← tagUri
      require (isSpaceOrEnd (← peek))
      pure (.handle handle meaning)
    | _ => do
      skipWhile fun c => !isBreak c
      pure .other
  finishLine
  return directive

end Reconciler.Yaml.Scanner

import Reconciler.Text.Hex
import Reconciler.Yaml.Cursor

/-!
# Text between quotes

Between single quotes only a doubled quote is special; between double quotes a backslash
starts an escape. In both, a line break with the blanks around it is one space, and further
breaks stay.

Escapes of sixteen bits may form surrogate pairs, so text is collected as code points and
the pairs are combined at its end.
-/

namespace Reconciler.Yaml.Scanner

/-- The characters that short escapes stand for. -/
def shortEscape? (c : Char) : Option Char :=
  match c with
  | '0' => some '\x00'
  | 'a' => some '\x07'
  | 'b' => some '\x08'
  | 't' => some '\t'
  | '\t' => some '\t'
  | 'n' => some '\n'
  | 'v' => some '\x0b'
  | 'f' => some '\x0c'
  | 'r' => some '\r'
  | 'e' => some '\x1b'
  | ' ' => some ' '
  | '"' => some '"'
  | '\\' => some '\\'
  | '/' => some '/'
  | 'N' => some '\x85'
  | '_' => some '\xa0'
  | 'L' => some '\u2028'
  | 'P' => some '\u2029'
  | _ => none

/-- How many digits follow the mark of a numeric escape. -/
def escapeWidth? (c : Char) : Option Nat :=
  match c with
  | 'x' => some 2
  | 'u' => some 4
  | 'U' => some 8
  | _ => none

/-- A code point in as many hexadecimal digits as given. Codes beyond the last one are
faults of different kinds, depending on whether they fit into 31 bits. -/
def codePoint (width : Nat) : Scanner Nat := do
  let digits := (← get).rest.take width
  require (digits.length == width)
  match Text.readHex digits with
  | none => flawed
  | some code =>
    if 0x80000000 ≤ code then throw (.fault .tooLarge)
    else if 0x110000 ≤ code then throw (.fault .malformed)
    else
      skip width
      return code

/-- The line breaks ahead, without the blanks around them. A marker between documents may
not stand at the start of a line. -/
def breaksInQuotes : Nat → Scanner (List Char)
  | 0 => return []
  | fuel + 1 => do
    require !(← get).atMarker
    skipWhile isSpaceOrTab
    match ← lineBreak with
    | [] => return []
    | taken => return taken ++ (← breaksInQuotes fuel)

/-- The code points of characters. -/
def codes (chars : List Char) : List Nat := chars.map Char.toNat

/-- The text up to the next blank or the closing quote. -/
def wordInQuotes (double : Bool) : Nat → Scanner (List Nat)
  | 0 => return []
  | fuel + 1 => do
    let chars ← takeWhile fun c => !(isGap c || c == '\'' || c == '"' || c == '\\')
    let c ← peek
    if !double && c == '\'' && (← peekAt 1) == '\'' then
      skip 2
      return codes chars ++ '\''.toNat :: (← wordInQuotes double fuel)
    else if (double && c == '\'') || (!double && (c == '"' || c == '\\')) then
      skip 1
      return codes chars ++ c.toNat :: (← wordInQuotes double fuel)
    else if double && c == '\\' then
      let escaped ← escape
      return codes chars ++ escaped ++ (← wordInQuotes double fuel)
    else return codes chars
where
  /-- What an escape stands for. A backslash at the end of a line hides the break. -/
  escape : Scanner (List Nat) := do
    skip 1
    let c ← peek
    if let some meaning := shortEscape? c then
      skip 1
      return [meaning.toNat]
    else if let some width := escapeWidth? c then
      skip 1
      return [← codePoint width]
    else if isBreak c then
      let _ ← lineBreak
      return codes (← breaksInQuotes (← bound))
    else flawed

/-- The blanks between two words: a single line break is a space. -/
def blanksInQuotes : Scanner (List Nat) := do
  let blanks ← takeWhile isSpaceOrTab
  let c ← peek
  require (c != endMark)
  match ← lineBreak with
  | [] => return codes blanks
  | taken =>
    let more ← breaksInQuotes (← bound)
    if taken != ['\n'] then return codes (taken ++ more)
    else if more.isEmpty then return [' '.toNat]
    else return codes more

/-- The words up to the closing quote. -/
def wordsInQuotes (quote : Char) : Nat → Scanner (List Nat)
  | 0 => flawed
  | fuel + 1 => do
    if (← peek) == quote then
      skip 1
      return []
    else
      let blanks ← blanksInQuotes
      let word ← wordInQuotes (quote == '"') (← bound)
      return blanks ++ word ++ (← wordsInQuotes quote fuel)

/-- The character of a code point; a surrogate without its partner has none of its own. -/
def charOf (code : Nat) : Char :=
  if 0xD800 ≤ code && code < 0xE000 then '\uFFFD' else Char.ofNat code

/-- The characters of code points, where surrogate pairs are one character each. -/
def combine : List Nat → List Char
  | [] => []
  | [code] => [charOf code]
  | high :: low :: rest =>
    if 0xD800 ≤ high && high < 0xDC00 && 0xDC00 ≤ low && low < 0xE000 then
      Char.ofNat (0x10000 + (high - 0xD800) * 0x400 + (low - 0xDC00)) :: combine rest
    else charOf high :: combine (low :: rest)

/-- A text between quotes. -/
def quoted : Scanner String := do
  let quote ← peek
  skip 1
  let word ← wordInQuotes (quote == '"') (← bound)
  let words ← wordsInQuotes quote (← bound)
  return String.ofList (combine (word ++ words))

end Reconciler.Yaml.Scanner

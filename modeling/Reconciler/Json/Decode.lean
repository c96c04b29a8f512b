import Reconciler.Number.Decimal
import Reconciler.Text.Hex
import Reconciler.Text.Integer
import Reconciler.Value.Members

/-!
# Reading JSON text

A number with a point or an exponent is read as a floating-point number and any other as a
whole number. Two escapes that form a pair of UTF-16 surrogates are one character. When a
mapping names a key twice, the last value counts.
-/

namespace Reconciler.Json

/-- Text without the blanks at its start. -/
def skipBlanks : List Char → List Char :=
  List.dropWhile fun c => c == ' ' || c == '\n' || c == '\t' || c == '\r'

/-- The unit that four hexadecimal digits spell, and the text after them. -/
def readUnit (text : List Char) : Option (Nat × List Char) :=
  if text.length < 4 then none
  else (Text.readHex (text.take 4)).map fun unit => (unit, text.drop 4)

/-- The character that an escape stands for, from the text after its backslash. -/
def readEscape : List Char → Option (Char × List Char)
  | '"' :: rest => some ('"', rest)
  | '\\' :: rest => some ('\\', rest)
  | '/' :: rest => some ('/', rest)
  | 'b' :: rest => some ('\x08', rest)
  | 'f' :: rest => some ('\x0c', rest)
  | 'n' :: rest => some ('\n', rest)
  | 'r' :: rest => some ('\r', rest)
  | 't' :: rest => some ('\t', rest)
  | 'u' :: rest => do
    let (unit, rest) ← readUnit rest
    if 0xD800 ≤ unit && unit < 0xDC00 then
      match rest with
      | '\\' :: 'u' :: rest =>
        let (low, rest) ← readUnit rest
        if 0xDC00 ≤ low && low < 0xE000 then
          return (Char.ofNat (0x10000 + (unit - 0xD800) * 0x400 + (low - 0xDC00)), rest)
        else none
      | _ => none
    else return (Char.ofNat unit, rest)
  | _ => none

/-- The rest of a text after its opening quote, up to the closing one. -/
def readText : Nat → List Char → Option (List Char × List Char)
  | 0, _ => none
  | _ + 1, [] => none
  | _ + 1, '"' :: rest => some ([], rest)
  | fuel + 1, '\\' :: rest => do
    let (c, rest) ← readEscape rest
    let (text, rest) ← readText fuel rest
    return (c :: text, rest)
  | fuel + 1, c :: rest => do
    let (text, rest) ← readText fuel rest
    return (c :: text, rest)

/-- Whether a character may belong to a number. -/
def inNumber (c : Char) : Bool :=
  Text.isAsciiDigit c || c == '-' || c == '+' || c == '.' || c == 'e' || c == 'E'

/-- A number from its characters. -/
def readNumber (text : List Char) : Option Value :=
  if text.any fun c => c == '.' || c == 'e' || c == 'E' then (Double.read text).map .float
  else (Text.readInteger text).map .int

/-- Drop a word from the start of a text. -/
def expect (word : String) (text : List Char) : Option (List Char) :=
  if word.toList.isPrefixOf text then some (text.drop word.length) else none

mutual

/-- The value at the start of a text, and the text after it. -/
def readValue : Nat → List Char → Option (Value × List Char)
  | 0, _ => none
  | fuel + 1, text =>
    match skipBlanks text with
    | 'n' :: rest => (expect "ull" rest).map (Value.null, ·)
    | 't' :: rest => (expect "rue" rest).map (Value.bool true, ·)
    | 'f' :: rest => (expect "alse" rest).map (Value.bool false, ·)
    | 'N' :: rest => (expect "aN" rest).map (Value.float .nan, ·)
    | 'I' :: rest => (expect "nfinity" rest).map (Value.float (.infinite false), ·)
    | '-' :: 'I' :: rest => (expect "nfinity" rest).map (Value.float (.infinite true), ·)
    | '"' :: rest => do
      let (chars, rest) ← readText (rest.length + 1) rest
      return (.text (String.ofList chars), rest)
    | '[' :: rest =>
      match skipBlanks rest with
      | ']' :: rest => some (.list [], rest)
      | rest => do
        let (items, rest) ← readItems fuel rest
        return (.list items, rest)
    | '{' :: rest =>
      match skipBlanks rest with
      | '}' :: rest => some (.map [], rest)
      | rest => do
        let (members, rest) ← readMembers fuel rest
        return (.map (Members.ofPairs members), rest)
    | rest => do
      let (number, rest) := rest.span inNumber
      let value ← readNumber number
      return (value, rest)

/-- The items of a list up to its closing bracket. -/
def readItems : Nat → List Char → Option (List Value × List Char)
  | 0, _ => none
  | fuel + 1, text => do
    let (item, rest) ← readValue fuel text
    match skipBlanks rest with
    | ']' :: rest => return ([item], rest)
    | ',' :: rest =>
      let (items, rest) ← readItems fuel rest
      return (item :: items, rest)
    | _ => none

/-- The members of a mapping up to its closing brace. -/
def readMembers : Nat → List Char → Option (Members × List Char)
  | 0, _ => none
  | fuel + 1, text => do
    match skipBlanks text with
    | '"' :: rest =>
      let (name, rest) ← readText (rest.length + 1) rest
      match skipBlanks rest with
      | ':' :: rest =>
        let (value, rest) ← readValue fuel rest
        let member := (Value.text (String.ofList name), value)
        match skipBlanks rest with
        | '}' :: rest => return ([member], rest)
        | ',' :: rest =>
          let (members, rest) ← readMembers fuel rest
          return (member :: members, rest)
        | _ => none
      | _ => none
    | _ => none

end

/-- The value that a whole text spells. Each step of reading uses up a character, so the
length of the text bounds the steps. -/
def decode (text : List Char) : Option Value :=
  match readValue (2 * text.length + 2) text with
  | some (value, rest) => if (skipBlanks rest).isEmpty then some value else none
  | none => none

end Reconciler.Json

import Reconciler.Number.Decimal
import Reconciler.Text.Hex
import Reconciler.Text.Integer
import Reconciler.Value.Members
import Reconciler.Value.Order

/-!
# Canonical JSON text

The canonical text of a value has its members sorted by key, no blanks, and only printable
ASCII; other characters are escapes of UTF-16 units. Two values that denote the same JSON
document therefore have the same text, which is what makes the texts comparable.

Dates and moments are written as their text, and keys that are not text as the text of
their scalar. A set, bytes, or a key of another kind has no JSON form.
-/

namespace Reconciler.Json

/-- Why a value has no canonical text. -/
inductive Refusal where
  /-- The keys of a mapping cannot be put in order. -/
  | unorderedKeys
  /-- A key is neither text nor a scalar. -/
  | key (typeName : String)
  /-- A value of this type has no JSON form. -/
  | value (typeName : String)
  /-- A whole number has too many digits. -/
  | tooLong
  deriving DecidableEq, Inhabited

/-- One UTF-16 unit as an escape. -/
def unitEscape (unit : Nat) : List Char := '\\' :: 'u' :: Text.hexPadded 4 unit

/-- One character of text. Beyond the basic plane it takes two units. -/
def encodeChar (c : Char) : List Char :=
  if c == '"' || c == '\\' then ['\\', c]
  else if c == '\n' then ['\\', 'n']
  else if c == '\r' then ['\\', 'r']
  else if c == '\t' then ['\\', 't']
  else if c == '\x0c' then ['\\', 'f']
  else if c == '\x08' then ['\\', 'b']
  else if 0x20 ≤ c.toNat && c.toNat ≤ 0x7E then [c]
  else if c.toNat < 0x10000 then unitEscape c.toNat
  else
    let rest := c.toNat - 0x10000
    unitEscape (0xD800 + rest / 0x400) ++ unitEscape (0xDC00 + rest % 0x400)

/-- Text between double quotes. -/
def encodeText (text : List Char) : List Char := '"' :: text.flatMap encodeChar ++ ['"']

/-- A floating-point number; those without digits have names. -/
def encodeDouble : Double → List Char
  | .nan => "NaN".toList
  | .infinite negative => if negative then "-Infinity".toList else "Infinity".toList
  | x => x.text.toList

/-- A whole number, if it is short enough to be written. -/
def encodeInt (value : Int) : Except Refusal (List Char) :=
  if Text.writable value then .ok (toString value).toList else .error .tooLong

/-- A scalar that may stand for a key, as text without quotes. -/
def keyText : Value → Except Refusal (List Char)
  | .text value => .ok value.toList
  | .null => .ok "null".toList
  | .bool value => .ok (if value then "true".toList else "false".toList)
  | .int value => encodeInt value
  | .float value => .ok (encodeDouble value)
  | value => .error (.key value.typeName)

/-- Parts between commas. -/
def joined : List (List Char) → List Char
  | [] => []
  | [part] => part
  | part :: parts => part ++ ',' :: joined parts

/-- The members of a mapping whose values are encoded already, or refused. A refusal counts
only when its member is reached in the order of the keys. -/
def encodeEntries : List (Value × Except Refusal (List Char)) → Except Refusal (List (List Char))
  | [] => .ok []
  | (key, value) :: rest => do
    let name ← keyText key
    let value ← value
    let parts ← encodeEntries rest
    return (encodeText name ++ ':' :: value) :: parts

mutual

/-- The canonical text of a value. -/
def encode : Value → Except Refusal (List Char)
  | .null => .ok "null".toList
  | .bool value => .ok (if value then "true".toList else "false".toList)
  | .int value => encodeInt value
  | .float value => .ok (encodeDouble value)
  | .text value => .ok (encodeText value.toList)
  | .date value => .ok (encodeText value.text.toList)
  | .moment value => .ok (encodeText value.text.toList)
  | .bytes _ => .error (.value "bytes")
  | .set _ => .error (.value "set")
  | .list items | .tuple items => do
    let parts ← encodeItems items
    return '[' :: joined parts ++ [']']
  | .map members =>
    match Value.sortBy? (fun x y => Value.less? x.1 y.1) (encodeMembers members) with
    | none => .error .unorderedKeys
    | some entries => do
      let parts ← encodeEntries entries
      return '{' :: joined parts ++ ['}']

/-- The canonical texts of the items of a list. -/
def encodeItems : List Value → Except Refusal (List (List Char))
  | [] => .ok []
  | item :: items => do
    let part ← encode item
    let parts ← encodeItems items
    return part :: parts

/-- The members of a mapping with the canonical texts of their values. -/
def encodeMembers : Members → List (Value × Except Refusal (List Char))
  | [] => []
  | (key, value) :: rest => (key, encode value) :: encodeMembers rest

end

mutual

/-- The value that reading the canonical text back gives: dates and moments are text, keys
are text, tuples are lists, and members are sorted. -/
def wire : Value → Value
  | .date value => .text value.text
  | .moment value => .text value.text
  | .list items | .tuple items => .list (wireItems items)
  | .map members =>
    let sorted := Value.sortBy (fun x y => (Value.less? x.1 y.1).getD false) (wireMembers members)
    .map (Members.ofPairs (sorted.map fun member => (wireKey member.1, member.2)))
  | value => value

/-- The items of a list as they are read back. -/
def wireItems : List Value → List Value
  | [] => []
  | item :: items => wire item :: wireItems items

/-- The members of a mapping with their values as they are read back. -/
def wireMembers : Members → Members
  | [] => []
  | (key, value) :: rest => (key, wire value) :: wireMembers rest

/-- A key as it is read back. -/
def wireKey (key : Value) : Value :=
  match keyText key with
  | .ok name => .text (String.ofList name)
  | .error _ => key

end

end Reconciler.Json

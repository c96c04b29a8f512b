/-!
# Hexadecimal digits

Bytes are written as two lower-case digits each, and escapes in quoted text use the same
digits padded to a fixed width.
-/

namespace Reconciler.Text

/-- The lower-case digit of a value below sixteen. -/
def hexDigit (value : Nat) : Char :=
  if value < 10 then Char.ofNat (48 + value) else Char.ofNat (87 + value)

/-- The value of a hexadecimal digit in either case. -/
def hexValue? (c : Char) : Option Nat :=
  if '0' ≤ c && c ≤ '9' then some (c.toNat - 48)
  else if 'a' ≤ c && c ≤ 'f' then some (c.toNat - 87)
  else if 'A' ≤ c && c ≤ 'F' then some (c.toNat - 55)
  else none

/-- A value in exactly `width` digits, leading zeros included. Digits beyond the width
are dropped, so callers choose a width that holds the value. -/
def hexPadded : Nat → Nat → List Char
  | 0, _ => []
  | width + 1, value => hexPadded width (value / 16) ++ [hexDigit (value % 16)]

/-- The value of a row of hexadecimal digits; `none` if some character is no digit. -/
def readHex (text : List Char) : Option Nat :=
  text.foldl (fun value c => value.bind fun v => (hexValue? c).map (16 * v + ·)) (some 0)

/-- Two digits for each byte. -/
def hexOfBytes (bytes : List UInt8) : String :=
  String.ofList (bytes.flatMap fun byte => hexPadded 2 byte.toNat)

/-- Bytes from pairs of digits; `none` for an odd row or a character that is no digit. -/
def bytesOfHex : List Char → Option (List UInt8)
  | [] => some []
  | [_] => none
  | high :: low :: rest => do
    let h ← hexValue? high
    let l ← hexValue? low
    let bytes ← bytesOfHex rest
    return UInt8.ofNat (16 * h + l) :: bytes

end Reconciler.Text

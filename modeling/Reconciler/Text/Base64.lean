/-!
# Base 64

Four characters of the standard alphabet carry three bytes, and `=` pads the last group.
The strict reading admits nothing else; the lenient one skips characters outside the
alphabet and ends at the padding of the last group.
-/

namespace Reconciler.Text.Base64

/-- The six bits that a character of the standard alphabet carries. -/
def sextet? (c : Char) : Option Nat :=
  if 'A' ≤ c && c ≤ 'Z' then some (c.toNat - 65)
  else if 'a' ≤ c && c ≤ 'z' then some (c.toNat - 71)
  else if '0' ≤ c && c ≤ '9' then some (c.toNat + 4)
  else if c == '+' then some 62
  else if c == '/' then some 63
  else none

/-- What has been read of the current group: how many characters, the bits that still
wait for a byte, the padding seen in this group, and whether any padding was seen. -/
structure Progress where
  position : Nat := 0
  pending : Nat := 0
  pads : Nat := 0
  padded : Bool := false

/-- Add six bits; from the second character of a group on, each completes a byte. -/
def Progress.push (state : Progress) (bits : Nat) : List UInt8 × Progress :=
  let next := { state with position := (state.position + 1) % 4, pads := 0 }
  match state.position with
  | 0 => ([], { next with pending := bits })
  | 1 => ([UInt8.ofNat (state.pending * 4 + bits / 16)], { next with pending := bits % 16 })
  | 2 => ([UInt8.ofNat (state.pending * 16 + bits / 4)], { next with pending := bits % 4 })
  | _ => ([UInt8.ofNat (state.pending * 64 + bits)], { next with pending := 0 })

/-- Read the groups from a given point of progress. The text may end only between groups
or at the padding that completes one. -/
def decodeFrom (strict : Bool) : Progress → List Char → Option (List UInt8)
  | state, [] => if state.position = 0 then some [] else none
  | state, c :: rest =>
    if c == '=' then
      if 2 ≤ state.position && 4 ≤ state.position + state.pads + 1 then
        if strict && !rest.isEmpty then none else some []
      else
        let pads := if 2 ≤ state.position then state.pads + 1 else state.pads
        decodeFrom strict { state with pads, padded := true } rest
    else match sextet? c with
      | none => if strict then none else decodeFrom strict state rest
      | some bits =>
        if strict && state.padded then none
        else
          let (bytes, next) := state.push bits
          (decodeFrom strict next rest).map (bytes ++ ·)

/-- The bytes of base 64 text; `none` if the text is malformed. -/
def decode (strict : Bool) (text : List Char) : Option (List UInt8) :=
  if strict && text.head? == some '=' then none else decodeFrom strict {} text

end Reconciler.Text.Base64

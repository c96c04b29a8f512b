import Reconciler.Value.Members

/-!
# Parts of any collection

Some rules are stated for mappings and are nevertheless applied to other values. What they
then see are the parts of the value: the keys of a mapping, the items of a list, tuple or
set, the characters of a text, the bytes of a byte string.
-/

namespace Reconciler.Value

/-- The parts of a collection in order; a fault for a value that has none. -/
def parts : Value → Except Fault (List Value)
  | .map members => .ok (Members.keys members)
  | .list items | .tuple items | .set items => .ok items
  | .text value => .ok (value.toList.map fun c => .text (String.ofList [c]))
  | .bytes value => .ok (value.map fun byte => .int byte.toNat)
  | _ => .error .wrongType

/-- Whether one text occurs within another. -/
def occursIn (part : List Char) : List Char → Bool
  | [] => part.isEmpty
  | c :: rest => part.isPrefixOf (c :: rest) || occursIn part rest

/-- Whether a value is among the parts of a collection. A text is in every text in which it
occurs. -/
def hasPart (collection part : Value) : Except Fault Bool :=
  match collection, part with
  | .map members, part => if part.isKey then .ok (Members.has members part) else .error .wrongType
  | .set items, part =>
    if part.isKey then .ok (items.any fun item => equal false item part) else .error .wrongType
  | .list items, part | .tuple items, part => .ok (items.any fun item => equal false item part)
  | .text value, .text part => .ok (occursIn part.toList value.toList)
  | .bytes value, .int part => .ok (value.any fun byte => (byte.toNat : Int) == part)
  | _, _ => .error .wrongType

end Reconciler.Value

import Reconciler.Value.Basic

/-!
# Text from values

Where a record needs text, it takes a text or bytes that are one in UTF-8.
-/

namespace Reconciler.Value

/-- A text, or bytes that spell one. -/
def asText? : Value → Option String
  | .text content => some content
  | .bytes content => String.fromUTF8? ⟨content.toArray⟩
  | _ => none

/-- A text or nothing. -/
def asOptionalText? : Value → Option (Option String)
  | .null => some none
  | value => value.asText?.map some

@[simp] theorem asText?_text (content : String) :
    (Value.text content).asText? = some content := rfl

@[simp] theorem asOptionalText?_null : Value.null.asOptionalText? = some none := rfl

end Reconciler.Value

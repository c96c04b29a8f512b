import Reconciler.Schema.Model
import Reconciler.Value.Shown

/-!
# Fields that a model does not declare

A mapping that a model types may only have the fields of that model. The search reports
each other key once, by its path from the root, in the order of the document. It goes down
through fields whose type is a model and through the elements of lists and mappings of
models; below an undeclared key or a field of any other type everything is free. The models
are those of a table.
-/

namespace Reconciler.Schema

/-- The path of a member. The members of a root without a path are named by their keys
alone, which keeps a key that is not text as it is. -/
def memberPath (path : String) (key : Value) : Value :=
  if path.isEmpty then key else .text (path ++ "." ++ key.plain)

/-- The path of the item at a position of a list. -/
def itemPath (path : String) (index : Nat) : String := path ++ "[" ++ toString index ++ "]"

mutual

/-- The undeclared keys at and below a value that a model types. -/
def unknownFields (table : Table) (model : Option String) (path : String) : Value → List Value
  | .map members =>
    match model.bind table.model? with
    | some declared => unknownMembers table declared path members
    | none => []
  | _ => []

/-- The undeclared keys among the members of a mapping, and below the declared ones. -/
def unknownMembers (table : Table) (declared : Model) (path : String) : Members → List Value
  | [] => []
  | (key, value) :: rest =>
    let here := memberPath path key
    let found := match key with
      | .text name =>
        match declared.type? name with
        | some type => unknownBelow table type here.plain value
        | none => [here]
      | _ => [here]
    found ++ unknownMembers table declared path rest

/-- The undeclared keys below the value of a declared field. -/
def unknownBelow (table : Table) (type path : String) : Value → List Value
  | .map members =>
    match table.model? type with
    | some declared => unknownMembers table declared path members
    | none => unknownValues table (table.modelOf (elementType (some type))) path members
  | .list items => unknownItems table (table.modelOf (elementType (some type))) path 0 items
  | _ => []

/-- The undeclared keys below the values of a mapping whose values a model types. -/
def unknownValues (table : Table) (model : Option String) (path : String) : Members → List Value
  | [] => []
  | (key, value) :: rest =>
    unknownFields table model (path ++ "." ++ key.plain) value ++
      unknownValues table model path rest

/-- The undeclared keys below the items of a list whose items a model types. -/
def unknownItems (table : Table) (model : Option String) (path : String) (index : Nat) :
    List Value → List Value
  | [] => []
  | item :: rest =>
    unknownFields table model (itemPath path index) item ++
      unknownItems table model path (index + 1) rest

end

end Reconciler.Schema

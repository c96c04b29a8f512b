/-!
# Models of objects

A model lists the fields that a type of the client library declares, each with the text of its
type: the name of a scalar, the name of another model, or a list or mapping of those. What the
library knows of its types is a table of models.
-/

namespace Reconciler.Schema

/-- A type of the client library: its name and its fields, each with the text of its type. -/
structure Model where
  name : String
  fields : List (String × String)
  deriving Inhabited

/-- The type of a field, if the model declares it. -/
def Model.type? (model : Model) (field : String) : Option String :=
  (model.fields.find? fun declared => declared.1 == field).map (·.2)

/-- Whether a model has a name like a class, with a capital letter first, and all its fields have
names. -/
def Model.isNamed (model : Model) : Bool :=
  model.name.front?.any Char.isUpper && model.fields.all fun field => field.1 != ""

/-- The models that the client library knows. -/
structure Table where
  models : List Model
  named : models.all Model.isNamed

namespace Table

/-- The model of a given name. -/
def model? (table : Table) (name : String) : Option Model :=
  table.models.find? fun model => model.name == name

/-- Whether a name, if there is one, is that of a model. -/
def isModel (table : Table) (name : Option String) : Bool := (name.bind table.model?).isSome

/-- The text of a field's type on the model of a given name. -/
def fieldType (table : Table) (model : Option String) (field : String) : Option String :=
  (model.bind table.model?).bind fun declared => declared.type? field

/-- A type that is a model; other types are free of structure. -/
def modelOf (table : Table) (type : Option String) : Option String :=
  if table.isModel type then type else none

@[simp] theorem fieldType_none (table : Table) (field : String) :
    table.fieldType none field = none := rfl

@[simp] theorem isModel_none (table : Table) : table.isModel none = false := rfl

@[simp] theorem modelOf_none (table : Table) : table.modelOf none = none := rfl

end Table

end Reconciler.Schema

import Reconciler.Schema.Kind
import Reconciler.Value.Members
import Reconciler.Value.Shown

/-!
# References to objects

A reference names one object by namespace, name and kind, and holds the last body that is
known of it. Two references with the same identity are the same object, whatever their
bodies and API versions say.
-/

namespace Reconciler

/-- The object that a problem concerns. A part that does not apply is null. -/
structure Subject where
  kind : Value := .null
  name : Value := .null
  /-- The namespace. -/
  space : Value := .null
  deriving Inhabited

/-- A reference to an object and its last known body. -/
structure Ref where
  name : Value
  /-- The namespace; null for an object outside of all namespaces. -/
  space : Value
  kind : Value
  apiVersion : Value
  body : Value
  deriving Inhabited

namespace Ref

/-- The reference as the subject of a problem. -/
def subject (ref : Ref) : Subject := ⟨ref.kind, ref.name, ref.space⟩

/-- Whether two references name the same object. -/
def sameIdentity (x y : Ref) : Bool :=
  x.space.equal true y.space && x.name.equal true y.name && x.kind.equal true y.kind

/-- The group of the object's API version. -/
def group (ref : Ref) : Except Fault String := do
  let (group, _) ← Schema.splitVersion ref.apiVersion
  return group

/-- What is known about the object's kind. -/
def info (ref : Ref) : Except Fault Schema.KindInfo := Schema.lookup ref.apiVersion ref.kind

/-- The version that the server gave the body. -/
def resourceVersion (ref : Ref) : Except Fault Value := do
  let metadata ← ref.body.get "metadata"
  metadata.orEmpty.get "resourceVersion"

/-- The reference with a new body. -/
def refresh (ref : Ref) (body : Value) : Ref := { ref with body }

/-- How a reference is shown: by kind and name, with the namespace if it has one. -/
def shown (ref : Ref) : String :=
  let place := if ref.space.isTruthy then ref.space.plain ++ "/" else ""
  "<ResourceRef " ++ ref.kind.plain ++ " " ++ place ++ ref.name.plain ++ ">"

@[simp] theorem subject_refresh (ref : Ref) (body : Value) :
    (ref.refresh body).subject = ref.subject := rfl

@[simp] theorem body_refresh (ref : Ref) (body : Value) : (ref.refresh body).body = body := rfl

@[simp] theorem sameIdentity_refresh (x y : Ref) (body : Value) :
    (x.refresh body).sameIdentity y = x.sameIdentity y := rfl

end Ref

end Reconciler

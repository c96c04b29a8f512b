import Reconciler.Cluster.Kinds

/-!
# The store of a cluster

The server keeps one object for each kind, namespace and name. It stamps what it stores with
a version that is new each time, so an object whose version has not changed has not been
written.
-/

namespace Reconciler.Cluster

/-- The place of an object in the store. -/
structure Key where
  kind : Value
  /-- The namespace; null for objects outside of all namespaces. -/
  space : Value
  name : Value
  deriving Inhabited

namespace Key

/-- Whether two keys are the same place. -/
def same (x y : Key) : Bool :=
  x.kind.equal false y.kind && x.space.equal false y.space && x.name.equal false y.name

/-- The place of the object that a reference names. -/
def ofRef (ref : Ref) : Key := ⟨ref.kind, ref.space, ref.name⟩

end Key

/-- Objects by their places, in the order in which they were first stored. -/
abbrev Store := List (Key × Value)

namespace Store

/-- The object at a place. -/
def get? (store : Store) (key : Key) : Option Value :=
  (store.find? fun entry => key.same entry.1).map (·.2)

/-- Store an object at a place. -/
def put : Store → Key → Value → Store
  | [], key, object => [(key, object)]
  | (other, old) :: rest, key, object =>
    if key.same other then (other, object) :: rest else (other, old) :: put rest key object

/-- Remove the object at a place, if there is one. -/
def remove (store : Store) (key : Key) : Store := store.filter fun entry => !key.same entry.1

/-- The objects of a kind in a namespace. -/
def list (store : Store) (kind : String) (space : Value) : List Value :=
  (store.filter fun entry =>
    entry.1.kind.equal false (.text kind) && entry.1.space.equal false space).map (·.2)

@[simp] theorem get?_nil (key : Key) : get? [] key = none := rfl

theorem get?_cons (key other : Key) (object : Value) (rest : Store) :
    get? ((other, object) :: rest) key =
      if key.same other then some object else get? rest key := by
  by_cases h : key.same other <;> simp [get?, h]

end Store

/-- A member of an object's metadata, null if there is none. -/
def metadataField (object : Value) (name : String) : Value :=
  let metadata := Value.ofOption (Members.field? object.members "metadata")
  Value.ofOption (Members.field? metadata.members name)

/-- An object with a member of its metadata written. -/
def writeMetadata (object : Value) (name : String) (value : Value) : Value :=
  let metadata := Value.ofOption (Members.field? object.members "metadata")
  let metadata := Members.put metadata.members (.text name) value
  .map (Members.put object.members (.text "metadata") (.map metadata))

/-- The version of an object. -/
def versionOf (object : Value) : Value := metadataField object "resourceVersion"

/-- An object with a version. -/
def writeVersion (object : Value) (version : Nat) : Value :=
  writeMetadata object "resourceVersion" (.text (toString version))

/-- The namespace of objects that are stored without one. -/
def storeSpace : Value := .text "default"

/-- The kind of an object. -/
def kindOf (object : Value) : Value := Value.ofOption (Members.field? object.members "kind")

/-- The API version of an object. -/
def apiVersionOf (object : Value) : Value :=
  Value.ofOption (Members.field? object.members "apiVersion")

/-- The object as it is stored without a request: in a namespace, if its kind is in one. -/
def placed (discovery : Manifest.Discovery) (object : Value) : Value :=
  match discovery.scope? (apiVersionOf object) (kindOf object) with
  | some .clusterWide => object
  | _ =>
    if (metadataField object "namespace").isTruthy then object
    else writeMetadata object "namespace" storeSpace

/-- The place of an object that is stored without a request. -/
def keyOfPlaced (object : Value) : Key :=
  ⟨kindOf object, metadataField object "namespace", metadataField object "name"⟩

/-- Whether an object's labels have all of the required pairs. -/
def hasLabels (required : List (String × String)) (object : Value) : Bool :=
  let labels := metadataField object "labels"
  required.all fun pair =>
    match Members.field? labels.members pair.1 with
    | some value => value.equal false (.text pair.2)
    | none => false

/-- The text between the separators of a text. -/
def splitAt (separator : Char) (text : List Char) : List (List Char) :=
  text.foldr (fun c parts => match parts with
    | part :: parts => if c == separator then [] :: part :: parts else (c :: part) :: parts
    | [] => []) [[]]

/-- The pair of labels that a part of a selector requires. -/
def requirement (part : List Char) : String × String :=
  let key := part.takeWhile fun c => c != '='
  (String.ofList key, String.ofList (part.drop (key.length + 1)))

/-- The pairs of labels that the text of a selector requires. Without text there are none. -/
def requirements (selector : String) : List (String × String) :=
  if selector.isEmpty then [] else (splitAt ',' selector.toList).map requirement

/-- Whether a selector selects an object. -/
def selects (selector : String) (object : Value) : Bool := hasLabels (requirements selector) object

/-- Objects in the order of their names. -/
def byName (objects : List Value) : List Value :=
  Value.sortBy (fun x y =>
    decide ((metadataField x "name").plain < (metadataField y "name").plain)) objects

/-- The objects of a kind in a namespace that a selector selects, in the order of their
names. -/
def Store.select (store : Store) (kind : String) (space : Value) (selector : String) :
    List Value :=
  byName ((store.list kind space).filter (selects selector))

end Reconciler.Cluster

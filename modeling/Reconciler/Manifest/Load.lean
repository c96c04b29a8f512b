import Reconciler.Manifest.Flatten
import Reconciler.Yaml.Read

/-!
# Loading manifests

A manifest is text, or bytes that must be text in UTF-8. Its documents that are not null are
the objects that it describes, after lists have been replaced by their items.
-/

namespace Reconciler.Manifest

/-- A manifest as it is given. -/
inductive Source where
  | text (content : String)
  | bytes (content : List UInt8)
  deriving Inhabited

/-- The text of a manifest. -/
def Source.decode : Source → Except Failure (List Char)
  | .text content => .ok content.toList
  | .bytes content =>
    match String.fromUTF8? ⟨content.toArray⟩ with
    | some decoded => .ok decoded.toList
    | none => .error (.ofCause .notText)

/-- A flaw of a text as the failure that is reported. -/
def failureOf : Yaml.Flaw → Failure
  | .form => .ofCause .unreadable
  | .fault fault => .fault fault

/-- Whether a document is null. -/
def isEmptyDocument : Tree → Bool
  | .leaf value => value.isNull
  | _ => false

/-- The documents of a manifest that are not null. -/
def documents (source : Source) : Except Failure (List Tree) := do
  let text ← source.decode
  let documents ← (Yaml.documents text).mapError failureOf
  return documents.filter fun document => !isEmptyDocument document

/-- The objects of a manifest as trees, with what has been written to shared parts. -/
def loadTrees (source : Source) : Except Failure (List Tree × Writes) := do
  flattenAll .document [] (← documents source)

/-- The objects of a manifest. -/
def load (source : Source) : Except Failure (List Value) := do
  let (trees, writes) ← loadTrees source
  return Tree.values writes trees

end Reconciler.Manifest

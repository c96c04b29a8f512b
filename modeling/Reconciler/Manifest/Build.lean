import Reconciler.Manifest.Load
import Reconciler.Resource.Set
import Reconciler.Schema.Unknown

/-!
# Building references from manifests

Each object of a manifest becomes a reference, if the cluster serves its kind. The namespace
of an object in one is its own, or else the one given to the build, or else the default of
the cluster; it is also written into the object. A strict build refuses objects with fields
that their models do not declare, and reports all of these objects together.
-/

namespace Reconciler.Manifest

/-- Where the objects of a kind live. -/
inductive Scope where
  | inNamespace
  | clusterWide
  deriving DecidableEq, Inhabited

/-- What a build needs to know of a cluster: the kinds that it serves, and the namespace of
objects for which no other is given. -/
structure Discovery where
  scope? : (apiVersion kind : Value) → Option Scope
  defaultSpace : Value
  deriving Inhabited

/-- A reference whose body may share parts with other bodies. -/
structure Draft where
  name : Value
  /-- The namespace. -/
  space : Value
  kind : Value
  apiVersion : Value
  object : Tree
  deriving Inhabited

/-- The reference that a draft becomes once everything has been written. -/
def Draft.ref (writes : Writes) (draft : Draft) : Ref :=
  ⟨draft.name, draft.space, draft.kind, draft.apiVersion, draft.object.value writes⟩

/-- The object with its namespace written into its metadata. -/
def writeSpace (writes : Writes) (space : Value) (object metadata : Tree) : Tree × Writes :=
  let (metadata, writes) := metadata.write writes "namespace" space
  match object with
  | .map mark members => (.map mark (Tree.put members (.text "metadata") metadata), writes)
  | tree => (tree, writes)

/-- Bind an object to the kind that the cluster serves, in a given namespace unless the
object has its own. -/
def bind (discovery : Discovery) (space : Value) (writes : Writes) (object : Tree) :
    Except Failure (Draft × Writes) := do
  let apiVersion := object.get writes "apiVersion"
  let kind := object.get writes "kind"
  if !apiVersion.isTruthy || !kind.isTruthy then
    throw (.ofCause (.untyped (object.value writes)))
  let metadata := ((object.member? writes "metadata").filter Tree.isMap).getD (.leaf .null)
  let name := metadata.get writes "name"
  if !name.isTruthy then throw (.problem ⟨.unnamed, { kind }⟩)
  match discovery.scope? apiVersion kind with
  | none => throw (.problem ⟨.unserved apiVersion, { kind, name }⟩)
  | some .clusterWide => return (⟨name, .null, kind, apiVersion, object⟩, writes)
  | some .inNamespace =>
    let own := metadata.get writes "namespace"
    let space := own.orElse (space.orElse discovery.defaultSpace)
    let (object, writes) := writeSpace writes space object metadata
    return (⟨name, space, kind, apiVersion, object⟩, writes)

/-- The texts of paths; a path that is no text is a fault. -/
def pathTexts : List Value → Except Fault (List String)
  | [] => .ok []
  | .text path :: paths => (pathTexts paths).map (path :: ·)
  | _ :: _ => .error .wrongType

/-- The undeclared fields of an object, by their paths. -/
def undeclaredPaths (object : Value) : Except Fault (List String) := do
  let info ← Schema.lookupObject object
  pathTexts (Schema.unknownFields Schema.builtin info.model "" object)

/-- What has been built so far: the references in order, the objects left out because of
undeclared fields, and what has been written to shared parts. -/
structure Progress where
  drafts : List Draft := []
  undeclared : List Undeclared := []
  writes : Writes := []

/-- Add the reference of an object, unless an object with its identity is there. -/
def Progress.add (progress : Progress) (draft : Draft) : Except Failure Progress :=
  let ref := draft.ref progress.writes
  if RefSet.contains (progress.drafts.map (Draft.ref progress.writes)) ref then
    throw (.about ref .duplicate)
  else
    return { progress with drafts := progress.drafts ++ [draft] }

/-- Build the reference of one more object. -/
def Progress.step (isStrict : Bool) (discovery : Discovery) (space : Value) (progress : Progress)
    (object : Tree) : Except Failure Progress := do
  let (draft, writes) ← bind discovery space progress.writes object
  let progress := { progress with writes }
  let paths ←
    if isStrict then liftFault (undeclaredPaths (draft.object.value writes)) else pure []
  if paths.isEmpty then progress.add draft
  else
    return { progress with
      undeclared := progress.undeclared ++ [⟨draft.kind, draft.name, paths⟩] }

/-- The references of objects in order. -/
def buildTrees (isStrict : Bool) (discovery : Discovery) (space : Value) (objects : List Tree)
    (writes : Writes) : Except Failure RefSet := do
  let progress ← objects.foldlM (Progress.step isStrict discovery space) { writes }
  if progress.undeclared.isEmpty then return progress.drafts.map (Draft.ref progress.writes)
  else throw (.ofCause (.undeclared progress.undeclared))

/-- The references of the objects of a manifest. -/
def build (isStrict : Bool) (discovery : Discovery) (space : Value) (source : Source) :
    Except Failure RefSet := do
  let (objects, writes) ← loadTrees source
  buildTrees isStrict discovery space objects writes

end Reconciler.Manifest

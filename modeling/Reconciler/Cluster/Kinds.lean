import Reconciler.Manifest.Build

/-!
# The kinds of a cluster

Each cluster says for itself which kinds it serves, and in which API versions. What is here is
the usual one: it serves the kinds of the registry and a few more, in every API version. Some
kinds are of the cluster as a whole, and their objects are in no namespace.
-/

namespace Reconciler.Cluster

/-- The kinds that the usual cluster serves though the registry does not list them. -/
def extraKinds : List String := ["Widget", "List", "Gizmo"]

/-- The kinds whose objects are in no namespace. -/
def clusterWideKinds : List String :=
  ["Namespace", "ClusterRole", "ClusterRoleBinding", "PersistentVolume", "Gizmo"]

/-- Whether the usual cluster serves a kind. -/
def isServed (kind : String) : Bool :=
  extraKinds.contains kind || Schema.registry.any fun info => info.kind == kind

/-- Where the objects of a kind live, if the usual cluster serves it. -/
def scopeOf? (kind : Value) : Option Manifest.Scope :=
  match kind with
  | .text kind =>
    if !isServed kind then none
    else if clusterWideKinds.contains kind then some .clusterWide
    else some .inNamespace
  | _ => none

/-- What a build needs to know of the usual cluster with a given default namespace. -/
def discovery (defaultSpace : Value) : Manifest.Discovery where
  scope? _ kind := scopeOf? kind
  defaultSpace := defaultSpace

end Reconciler.Cluster

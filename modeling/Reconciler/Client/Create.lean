import Reconciler.Client.Basic

/-!
# Creating and deleting the objects of a manifest

Objects are created in the order of the manifest, up to the first one that the server
refuses. They are deleted in the same order, and those that are already gone are passed over.
-/

namespace Reconciler.Client

/-- Create the objects of a manifest; then wait for them if that is asked for. The result has
the references with the bodies that the server gave. -/
def create (client : Client) (space : Value) (source : Manifest.Source) (isWaiting : Bool)
    (timeout : Value) : Session RefSet := do
  let refs ← buildSome false space source
  let refs ← Session.visit (fun ref => createObject ref .createRefused) refs
  client.waitIf isWaiting refs timeout

/-- Delete the objects of a manifest. -/
def delete (client : Client) (space : Value) (source : Manifest.Source) : Session RefSet := do
  let refs ← buildSome false space source
  let _ ← Session.visit client.deleteIfThere refs
  return refs

end Reconciler.Client

import Reconciler.Cluster.Kinds
import Reconciler.Manifest.Build
import Reconciler.Readiness.Wait
import Reconciler.Settings

/-!
# Clients

A client works on a cluster by manifests. Its settings say how long it waits and what
becomes of the dependents of the objects that it deletes. What is here acts on one object;
a call that the server refuses is a problem that concerns this object.
-/

namespace Reconciler

/-- A client. -/
structure Client where
  settings : Settings := {}
  deriving Inhabited

namespace Client

/-- Build the references of a manifest for the cluster. -/
def build (isStrict : Bool) (space : Value) (source : Manifest.Source) : Session RefSet := do
  let s ← Session.state
  Session.ofExcept (Manifest.build isStrict s.discovery space source)

/-- Build the references of a manifest that must have objects. -/
def buildSome (isStrict : Bool) (space : Value) (source : Manifest.Source) : Session RefSet := do
  let refs ← build isStrict space source
  if refs.isEmpty then throw (.ofCause .noObjects) else return refs

/-- The timeout to use: the one given, or else the default. -/
def timeoutOr (client : Client) (timeout : Value) : Value :=
  if timeout.isNull then .int client.settings.defaultTimeout else timeout

/-- The seconds between two checks. -/
def interval (client : Client) : Value := .float client.settings.pollInterval

/-- Wait for references if that is asked for. -/
def waitIf (client : Client) (isAsked : Bool) (refs : RefSet) (timeout : Value) :
    Session RefSet :=
  if isAsked then Readiness.wait refs (client.timeoutOr timeout) client.interval else pure refs

/-- Get an object, and refresh its reference. -/
def refresh (ref : Ref) (cause : ApiRefusal → Cause) : Session Ref := do
  let body ← Session.call (Cluster.get (.ofRef ref)) fun refusal => .about ref (cause refusal)
  return ref.refresh body

/-- What a refusal to get an object is to a caller that asks for nothing else. -/
def faultOf (refusal : ApiRefusal) : Fault :=
  if refusal.isAbsence then .absentOnServer else .refusedByServer

/-- Get an object, and refresh its reference. The refusal of the server is passed on. -/
def fetch (ref : Ref) : Session Ref := do
  let body ← Session.call (Cluster.get (.ofRef ref)) fun refusal => .fault (faultOf refusal)
  return ref.refresh body

/-- Create an object with the body of its reference. -/
def createObject (ref : Ref) (cause : ApiRefusal → Cause) : Session Ref := do
  let body ← Session.call (Cluster.create (.ofRef ref) ref.body) fun refusal =>
    .about ref (cause refusal)
  return ref.refresh body

/-- Ask the server to delete an object. -/
def deleteObject (client : Client) (ref : Ref) : Cluster.Api Unit :=
  Cluster.delete (.ofRef ref) client.settings.propagation

/-- Delete an object. One that is not there need not be deleted. -/
def deleteIfThere (client : Client) (ref : Ref) : Session Unit := do
  match ← client.deleteObject ref with
  | .ok _ => return ()
  | .error refusal =>
    if refusal.isAbsence then return () else throw (.about ref (.deleteRefused refusal))

@[simp] theorem timeoutOr_null (client : Client) :
    client.timeoutOr .null = .int client.settings.defaultTimeout := rfl

end Client

end Reconciler

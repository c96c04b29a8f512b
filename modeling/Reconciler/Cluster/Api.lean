import Reconciler.Cluster.State

/-!
# Calls to a cluster

A call is recorded before anything else happens. If a rule refuses it, it has no further
effect; otherwise it acts on the store. Only creating and patching give an object a new
version, and a patch changes nothing else in it.
-/

namespace Reconciler

/-- Whether a refusal says that there is no such object. -/
def ApiRefusal.isAbsence (refusal : ApiRefusal) : Bool := refusal.status.equal false (.int 404)

namespace Cluster

/-- The answer to a call. -/
abbrev Reply (α : Type) := Except ApiRefusal α

/-- A call: what it makes of a cluster, and its answer. -/
abbrev Api (α : Type) := StateM State (Reply α)

/-- The refusal of calls on an object that does not exist. -/
def absent : ApiRefusal := ⟨.int 404, .text "Not Found"⟩

/-- The refusal to create an object that exists. -/
def conflict : ApiRefusal := ⟨.int 409, .text "Conflict"⟩

/-- Make a call: record it, and unless a rule refuses it let it act. -/
def perform (verb : Verb) (kind name : Value) (call : Call) (act : State → Reply α × State) :
    Api α := fun s =>
  let s := s.record call
  let (refusal, rules) := tryRules verb kind name s.rules
  let s := { s with rules }
  match refusal with
  | some refusal => (.error refusal, s)
  | none => act s

/-- A call that no rule refuses does what it does after it has been recorded. -/
theorem perform_of_accepted {verb : Verb} {kind name : Value} {call : Call}
    {act : State → Reply α × State} {s : State} {rules : List Rule}
    (h : tryRules verb kind name s.rules = (none, rules)) :
    perform verb kind name call act s = act { s.record call with rules } := by
  simp [perform, State.record, h]

/-- A refused call is recorded and has no other effect than to be counted. -/
theorem perform_of_refused {verb : Verb} {kind name : Value} {call : Call}
    {act : State → Reply α × State} {s : State} {refusal : ApiRefusal} {rules : List Rule}
    (h : tryRules verb kind name s.rules = (some refusal, rules)) :
    perform verb kind name call act s = (.error refusal, { s.record call with rules }) := by
  simp [perform, State.record, h]

/-- An answer that leaves the cluster as it is. -/
def unchanged (answer : State → Reply α) (s : State) : Reply α × State := (answer s, s)

/-! ### Objects by their places -/

/-- The object at a place, or the refusal that there is none. -/
def State.find (s : State) (key : Key) : Reply Value :=
  match s.store.get? key with
  | some object => .ok object
  | none => .error absent

/-- Get an object. -/
def get (key : Key) : Api Value :=
  perform .get key.kind key.name (.get key) (unchanged fun s => s.find key)

/-- The effect of creating an object. -/
def State.create (s : State) (key : Key) (body : Value) : Reply Value × State :=
  match s.store.get? key with
  | some _ => (.error conflict, s)
  | none =>
    let s := s.stamp key body
    (s.find key, s)

/-- Create an object with a body. -/
def create (key : Key) (body : Value) : Api Value :=
  perform .create key.kind key.name (.create key) fun s => s.create key body

/-- The effect of patching an object, which is a new version alone. -/
def State.patch (s : State) (key : Key) : Reply Value × State :=
  match s.store.get? key with
  | some object =>
    let s := s.stamp key object
    (s.find key, s)
  | none => (.error absent, s)

/-- Patch an object. -/
def patch (key : Key) (body : Value) (contentType : String) : Api Value :=
  perform .patch key.kind key.name (.patch key body contentType) fun s => s.patch key

/-- The effect of deleting an object. -/
def State.delete (s : State) (key : Key) : Reply Unit × State :=
  match s.store.get? key with
  | some _ => (.ok (), { s with store := s.store.remove key })
  | none => (.error absent, s)

/-- What a request to delete says of the dependents of the object. -/
def deleteOptions (propagation : String) : Value :=
  .map [(.text "propagationPolicy", .text propagation)]

/-- Delete an object. -/
def delete (key : Key) (propagation : String) : Api Unit :=
  perform .delete key.kind key.name (.delete key (deleteOptions propagation)) fun s =>
    s.delete key

/-! ### Typed interfaces -/

/-- List the pods of a namespace that a selector selects. -/
def listPods (space : Value) (selector : String) : Api (List Value) :=
  perform .listPods (.text "Pod") .null (.listPods space selector)
    (unchanged fun s => .ok (s.store.select "Pod" space selector))

/-- Delete a pod. The request names the identifier that the pod must have, which the server
checks; here it is recorded alone. -/
def deletePod (space name uid : Value) : Api Unit :=
  perform .deletePod (.text "Pod") name (.deletePod space name uid) fun s =>
    (.ok (), { s with store := s.store.remove ⟨.text "Pod", space, name⟩ })

/-- Read a deployment. -/
def readDeployment (space name : Value) : Api Value :=
  perform .readDeployment (.text "Deployment") name (.readDeployment space name)
    (unchanged fun s => s.find ⟨.text "Deployment", space, name⟩)

/-- List the replica sets of a namespace that a selector selects. -/
def listReplicaSets (space : Value) (selector : String) : Api (List Value) :=
  perform .listReplicaSets (.text "ReplicaSet") .null (.listReplicaSets space selector)
    (unchanged fun s => .ok (s.store.select "ReplicaSet" space selector))

/-- Begin to watch an object; the answer is what will happen. -/
def watch (key : Key) (version timeout : Value) : Api (List StreamItem) :=
  perform .watch key.kind key.name (.watch key version timeout)
    (unchanged fun s => .ok (s.stream key))

end Cluster

end Reconciler

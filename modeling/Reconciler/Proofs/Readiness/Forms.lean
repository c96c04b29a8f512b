import Reconciler.Proofs.Readiness.Pending
import Reconciler.Proofs.Rollout.Total
import Reconciler.Proofs.Schema.Total

/-!
# Well-formed clusters

A server checks the objects that it stores, so those of the kinds that a readiness check reads
have certain forms. On a cluster of such objects a check cannot fail with a fault: what it reads
is there or null. If a check fails at all, then a call of it was refused.
-/

namespace Reconciler

open Cluster (State Store Key Reply)
open Form

namespace Readiness

open Session

/-! ### Forms -/

def podForm : Form := record [
  ("metadata", record []),
  ("status", record [("conditions", list (record []))])]

def serviceForm : Form := record [
  ("metadata", record []),
  ("spec", record []),
  ("status", record [("loadBalancer", record [])])]

def claimForm : Form := record [
  ("metadata", record []),
  ("status", record [])]

/-- The forms that the objects of a kind have. -/
def formsOf (info : Schema.KindInfo) : List Form :=
  match info.readiness with
  | .pod => [podForm]
  | .selectedPods => info.selector.toList.map Schema.SelectorRule.form
  | .service => [serviceForm]
  | .volumeClaim => [claimForm]
  | .deployment => [Schema.SelectorRule.matchLabels.form, Rollout.deploymentForm]
  | .job | .unrecognized => []

/-- An object is well-formed for its kind. Replica sets are also read for deployments. -/
structure IsWellFormed (kind : String) (object : Value) : Prop where
  json : object.isJson
  present : object.isNull = false
  forms : ∀ info ∈ Schema.registry, info.kind = kind → ∀ form ∈ formsOf info, form.fits object
  replicaSet : kind = "ReplicaSet" → Rollout.replicaSetForm.fits object

instance (kind : String) (object : Value) : Decidable (IsWellFormed kind object) :=
  decidable_of_iff (object.isJson = true ∧ object.isNull = false ∧
      (∀ info ∈ Schema.registry, info.kind = kind → ∀ form ∈ formsOf info, form.fits object) ∧
      (kind = "ReplicaSet" → Rollout.replicaSetForm.fits object))
    ⟨fun ⟨json, present, forms, replicaSet⟩ => ⟨json, present, forms, replicaSet⟩,
      fun h => ⟨h.json, h.present, h.forms, h.replicaSet⟩⟩

/-- A pod with labels that says whether it is ready. -/
def samplePod (name : String) (labels : List (String × String)) (ready : String) : Value := .map [
  (.text "apiVersion", .text "v1"),
  (.text "kind", .text "Pod"),
  (.text "metadata", .map [
    (.text "name", .text name),
    (.text "namespace", .text "default"),
    (.text "labels", .map (labels.map fun label => (.text label.1, .text label.2)))]),
  (.text "status", .map [(.text "conditions", .list [
    .map [(.text "type", .text "Ready"), (.text "status", .text ready)]])])]

/-- A workload that asks for one pod. -/
def sampleWorkload (apiVersion kind name : String) (selector : Value) : Value := .map [
  (.text "apiVersion", .text apiVersion),
  (.text "kind", .text kind),
  (.text "metadata", .map [(.text "name", .text name), (.text "namespace", .text "default")]),
  (.text "spec", .map [(.text "replicas", .int 1), (.text "selector", selector)])]

/-- A cluster with objects that were stored without a request. -/
def sampleCluster (objects : List Value) : State where
  store := objects.map fun object => (Cluster.keyOfPlaced object, object)

example : IsWellFormed "Pod" (samplePod "web-1" [("app", "web")] "False") := by decide +kernel

/-- A reference to an object that was not read yet. -/
def sampleRef (apiVersion kind name : String) : Ref where
  name := .text name
  space := .text "default"
  kind := .text kind
  apiVersion := .text apiVersion
  body := .null

end Readiness

/-- All objects of a cluster are well-formed. -/
def Cluster.State.IsWellFormed (s : State) : Prop :=
  ∀ entry ∈ s.store, ∀ kind, entry.1.kind = .text kind → Readiness.IsWellFormed kind entry.2

namespace Readiness

open Session

variable {fields sub : List (String × Form)} {object : Value} {form : Form}

/-! ### Predicates -/

theorem gives_nested (h : (record fields).fits object) (present : object.isNull = false)
    (outer : String) (houter : fields.lookup outer = some (record sub)) (inner : String)
    (hinner : sub.lookup inner = some form) :
    Gives (nested object outer inner) (form.fits ·) :=
  (gives_get h present outer houter).bind fun _ hvalue => gives_orEmpty_get hvalue inner hinner

theorem gives_nested_any (h : (record fields).fits object) (present : object.isNull = false)
    (outer : String) (houter : fields.lookup outer = some (record sub)) (inner : String) :
    Gives (nested object outer inner) fun _ => True :=
  (gives_get h present outer houter).bind fun _ hvalue => gives_orEmpty_get_any hvalue inner

theorem gives_describe (h : (record fields).fits object) (present : object.isNull = false)
    (hmetadata : fields.lookup "metadata" = some (record sub)) :
    Gives (describe object) fun _ => True := by
  refine (gives_get h present "metadata" hmetadata).bind fun metadata hvalue => ?_
  refine (gives_orEmpty_get_any hvalue "namespace").bind fun space _ => ?_
  exact (gives_orEmpty_get_any hvalue "name").bind fun name _ => gives_ok trivial

theorem gives_podReady (h : podForm.fits object) (present : object.isNull = false) :
    Gives (podReady object) fun _ => True := by
  refine (gives_nested h present "status" rfl "conditions" rfl).bind fun conditions hlist => ?_
  refine (gives_parts hlist).bind fun items hitems => ?_
  clear hlist
  induction items with
  | nil => exact gives_ok trivial
  | cons item rest ih =>
    obtain ⟨⟨there, fits⟩, hrest⟩ := List.forall_mem_cons.mp hitems
    refine (gives_get_any fits there "type").bind fun own _ => ?_
    split
    · refine (gives_get_any fits there "status").bind fun status _ => ?_
      split
      · exact gives_ok trivial
      · exact ih hrest
    · exact ih hrest

theorem gives_serviceReady (h : serviceForm.fits object) (present : object.isNull = false) :
    Gives (serviceReady object) fun _ => True := by
  refine (gives_get h present "spec" rfl).bind fun spec hspec => ?_
  refine (gives_orEmpty_get_any hspec "type").bind fun type _ => ?_
  split
  · exact gives_ok trivial
  · refine (gives_orEmpty_get_any hspec "clusterIP").bind fun address _ => ?_
    split
    · exact gives_ok trivial
    · split
      · refine (gives_nested h present "status" rfl "loadBalancer" rfl).bind
          fun balancer hbalancer => ?_
        exact (gives_orEmpty_get_any hbalancer "ingress").bind fun _ _ => gives_ok trivial
      · exact gives_ok trivial

theorem gives_claimReady (h : claimForm.fits object) (present : object.isNull = false) :
    Gives (claimReady object) fun _ => True :=
  (gives_nested_any h present "status" rfl "phase").bind fun _ _ => gives_ok trivial

theorem gives_deploymentReady (h : Rollout.deploymentForm.fits object)
    (present : object.isNull = false) {replicaSet : Value}
    (hset : Rollout.replicaSetForm.fits replicaSet) :
    Gives (deploymentReady object replicaSet) fun _ => True := by
  unfold deploymentReady
  split
  · exact gives_ok trivial
  · rename_i there
    refine (gives_nested hset (by simpa using there) "status" rfl "readyReplicas" rfl).bind
      fun ready hready => ?_
    refine (Rollout.gives_readyThreshold h present).bind fun threshold _ => ?_
    rcases whole_cases hready with rfl | ⟨number, rfl⟩
    · exact gives_ok trivial
    · cases hzero : number != 0 <;>
        simp only [Value.orElse, Value.isTruthy, hzero] <;> exact gives_ok trivial

/-! ### Objects of a store -/

variable {s : State} {kind : String}

theorem isWellFormed_of_store_eq {s' : State} (wellFormed : s.IsWellFormed)
    (same : s'.store = s.store) : s'.IsWellFormed := by
  rw [State.IsWellFormed, same]
  exact wellFormed

theorem isWellFormed_of_get? (wellFormed : s.IsWellFormed) {key : Key}
    (hkind : key.kind = .text kind) (h : s.store.get? key = some object) :
    IsWellFormed kind object := by
  rw [Store.get?, Option.map_eq_some_iff] at h
  obtain ⟨entry, hentry, rfl⟩ := h
  have same := List.find?_some hentry
  rw [Key.same, Bool.and_eq_true, Bool.and_eq_true, hkind] at same
  refine wellFormed entry (List.mem_of_find?_eq_some hentry) kind ?_
  exact (Value.sameKey_text_left kind _).mp same.1.1

theorem isWellFormed_of_select (wellFormed : s.IsWellFormed) {space : Value} {selector : String}
    (h : object ∈ s.store.select kind space selector) : IsWellFormed kind object := by
  rw [Cluster.Store.mem_select, Cluster.Store.mem_list] at h
  obtain ⟨⟨entry, hmem, hkind, -, rfl⟩, -⟩ := h
  exact wellFormed entry hmem kind hkind

/-- An object is of no kind that is known, or well-formed for its kind. -/
def IsKnown (info : Schema.KindInfo) (object : Value) : Prop :=
  info = .unsupported ∨ info ∈ Schema.registry ∧ IsWellFormed info.kind object

theorem exists_isKnown (wellFormed : s.IsWellFormed) {ref : Ref} (typed : ref.isTyped) :
    ∃ info, ref.info = .ok info ∧
      ∀ body, s.store.get? (.ofRef ref) = some body → IsKnown info body := by
  obtain ⟨info, hinfo, known⟩ := Ref.gives_info typed
  refine ⟨info, hinfo, ?_⟩
  intro body hbody
  rcases known with rfl | ⟨listed, hkind⟩
  · exact .inl rfl
  · exact .inr ⟨listed, isWellFormed_of_get? wellFormed hkind hbody⟩

theorem IsWellFormed.fits_podForm (h : IsWellFormed "Pod" object) : podForm.fits object :=
  h.forms ⟨"", "Pod", some "V1Pod", .pod, none⟩ (by decide) rfl _ (List.mem_cons_self ..)

theorem IsWellFormed.fits_deploymentForm (h : IsWellFormed "Deployment" object) :
    Rollout.deploymentForm.fits object ∧ Schema.SelectorRule.matchLabels.form.fits object := by
  have forms := h.forms ⟨"apps", "Deployment", some "V1Deployment", .deployment,
    some .matchLabels⟩ (by decide) rfl
  exact ⟨forms _ (by simp [formsOf]), forms _ (by simp [formsOf])⟩

end Readiness

end Reconciler

import Reconciler.Proofs.Readiness.Conjunction
import Reconciler.Proofs.Schema.Selecting

/-!
# The pods of workloads

A workload is judged by the pods that are listed for it: those in its namespace that have all
labels which its object, as the cluster has it, requires. A set is found ready only if all of
these pods are, and pods that lack a label make no difference. But how many pods a workload asks
for is not looked at, so one without pods is ready as soon as it exists. And the expressions of
a label selector are no part of the listing, so pods that they exclude count like all others.
-/

namespace Reconciler.Readiness

open Cluster (State Store Key LastsWhileRead)
open Session

variable {s s' : State} {ref : Ref} {info : Schema.KindInfo} {labels : Members}

/-- A reference to an object whose readiness is that of its pods. -/
def IsWorkload (ref : Ref) : Prop := ∃ info, ref.info = .ok info ∧ info.readiness = .selectedPods

/-- The labels by which the pods of an object are found, as a store has it. -/
def podLabels? (store : Store) (ref : Ref) : Option Members := do
  let info ← ref.info.toOption
  let body ← store.get? (.ofRef ref)
  (info.podLabels body).toOption

/-- Whether a stored object is a pod in the namespace of a reference and has given labels. -/
def isPodOf (ref : Ref) (labels : Members) (entry : Key × Value) : Bool :=
  entry.1.kind.equal false (.text "Pod") && entry.1.space.equal false ref.space &&
    labels.all (Schema.hasLabel entry.2)

/-- All pods in the namespace of a reference that have given labels are ready. -/
def PodsReady (store : Store) (ref : Ref) (labels : Members) : Prop :=
  ∀ entry ∈ store, isPodOf ref labels entry → podReady entry.2.portable = .ok true

theorem podLabels?_eq_some_iff {store : Store} : podLabels? store ref = some labels ↔
    ∃ info body, ref.info = .ok info ∧ store.get? (.ofRef ref) = some body ∧
      info.podLabels body = .ok labels := by
  constructor
  · intro h
    obtain ⟨info, hinfo, h⟩ := Option.bind_eq_some_iff.mp h
    obtain ⟨body, hbody, h⟩ := Option.bind_eq_some_iff.mp h
    exact ⟨info, body, toOption_eq_some_iff.mp hinfo, hbody, toOption_eq_some_iff.mp h⟩
  · rintro ⟨info, body, hinfo, hbody, hlabels⟩
    refine Option.bind_eq_some_iff.mpr ⟨info, toOption_eq_some_iff.mpr hinfo, ?_⟩
    exact Option.bind_eq_some_iff.mpr ⟨body, hbody, toOption_eq_some_iff.mpr hlabels⟩

/-- The pods that the text of labels selects, by their labels. -/
theorem select_eq {text : String} (written : ∀ label ∈ labels, Schema.isRequirable label)
    (htext : Schema.selectorText labels = .ok text) (store : Store) :
    store.select "Pod" ref.space text =
      Cluster.byName ((store.filter (isPodOf ref labels)).map (·.2)) := by
  rw [Store.select, Store.list, Schema.selects_eq_all written htext, List.filter_map,
    List.filter_filter]
  congr 3
  funext entry
  rw [Function.comp_apply, Bool.and_comm]
  rfl

/-! ### Pods of a set that is ready -/

theorem eq_map_of_serializedAll {objects values : List Value}
    (h : (serializedAll objects).on s = (.ok values, s')) :
    values = objects.map Value.portable := by
  induction objects generalizing s values with
  | nil =>
    cases h
    rfl
  | cons object rest ih =>
    obtain ⟨value, s₁, hvalue, h⟩ := on_bind_eq_ok.mp h
    obtain ⟨more, s₂, hmore, h⟩ := on_bind_eq_ok.mp h
    cases h
    unfold serialized at hvalue
    split at hvalue <;> cases hvalue
    rw [List.map_cons, ih hmore]

/-- The evidence for a workload is the pods with its labels. -/
theorem pods_of_evidence {record : Record} (hinfo : ref.info = .ok info)
    (family : info.readiness = .selectedPods)
    (h : (evidence ref).on s = (.ok (.ok record), s')) : ∃ labels text,
      info.podLabels ref.body = .ok labels ∧ Schema.selectorText labels = .ok text ∧
        record.pods = (s.store.select "Pod" ref.space text).map Value.portable := by
  rw [evidence, on_bind_ofFault hinfo, family] at h
  obtain ⟨labels, s₁, hlabels, h⟩ := on_bind_eq_ok.mp h
  obtain ⟨reply, s₂, hreply, h⟩ := on_bind_eq_ok.mp h
  obtain ⟨text, s₃, htext, hreply⟩ := on_bind_eq_ok.mp hreply
  obtain ⟨answer, s₄, hlist, hreply⟩ := on_bind_eq_ok.mp hreply
  rw [on_ofExcept, Prod.mk.injEq] at hlabels
  rw [ofFault, on_ofExcept, Prod.mk.injEq, liftFault_eq_ok] at htext
  obtain ⟨hlabels, rfl⟩ := hlabels
  obtain ⟨htext, rfl⟩ := htext
  refine ⟨labels, text, hlabels, htext, ?_⟩
  cases answer with
  | error refusal =>
    cases hreply
    cases h
  | ok pods =>
    obtain ⟨values, s₅, hvalues, hreply⟩ := on_bind_eq_ok.mp hreply
    cases hreply
    cases h
    rw [on_lift] at hlist
    have listed := Cluster.listPods_eq_ok (Prod.ext (Except.ok.inj (congrArg Prod.fst hlist)) rfl)
    rw [← listed]
    exact eq_map_of_serializedAll hvalues

/-- If nothing of a set is listed as not ready, then each workload of it exists, and all pods with
its labels are ready. -/
theorem podsReady_of_unready {refs : RefSet} (h : ((unready refs).on s).1 = .ok [])
    (hmem : ref ∈ refs) (workload : IsWorkload ref) : ∃ labels,
      podLabels? s.store ref = some labels ∧
        ((∀ label ∈ labels, Schema.isRequirable label) → PodsReady s.store ref labels) := by
  induction refs generalizing s with
  | nil => cases hmem
  | cons first rest ih =>
    obtain ⟨seen, s₁, hobserve, ready, others⟩ := unready_cons_eq_nil_iff.mp h
    rcases List.mem_cons.mp hmem with rfl | hmem
    · obtain ⟨body, s₂, record, hget, hevidence, ready⟩ :=
        observe_pending_eq_nil_iff.mp ⟨seen, hobserve, ready⟩
      obtain ⟨info, hinfo, family⟩ := workload
      have same := (Cluster.called_get (.ofRef ref) s).store_eq
      rw [hget] at same
      have refreshed : (ref.refresh body).info = .ok info := hinfo
      obtain ⟨labels, text, hlabels, htext, hpods⟩ := pods_of_evidence refreshed family hevidence
      have found := podLabels?_eq_some_iff.mpr ⟨info, body, hinfo, Cluster.get_eq_ok hget, hlabels⟩
      refine ⟨labels, found, ?_⟩
      intro written entry hentry hpod
      refine (pending_eq_nil_iff.mp ready).2.1 entry.2.portable ?_
      have listed : entry.2 ∈ s₂.store.select "Pod" ref.space text := by
        rw [select_eq written htext, Cluster.byName, (Value.sortBy_perm _ _).mem_iff, same]
        exact List.mem_map_of_mem (List.mem_filter.mpr ⟨hentry, hpod⟩)
      rw [hpods]
      exact List.mem_map_of_mem listed
    · -- The others are observed later, when the cluster still has the same store.
      have same := (meets_observe Contract.permitsChecks_checking first s).1.1
      rw [hobserve] at same
      rw [← same]
      exact ih others hmem

theorem accepted_of_no_rules (unrefused : s.rules = []) (verb : Cluster.Verb) (kind name : Value) :
    s.verdict verb kind name = none := by
  rw [State.verdict, unrefused]
  rfl

/-- A workload that exists is ready if all pods with its labels are, even if there are none. -/
theorem isSatisfied_of_podsReady (wellFormed : s.IsWellFormed) (unrefused : s.rules = [])
    (workload : IsWorkload ref) (hlabels : podLabels? s.store ref = some labels)
    (written : ∀ label ∈ labels, Schema.isRequirable label)
    (ready : PodsReady s.store ref labels) : IsSatisfied ref s := by
  obtain ⟨info, hinfo, family⟩ := workload
  obtain ⟨found, body, hfound, hbody, hlabels⟩ := podLabels?_eq_some_iff.mp hlabels
  obtain rfl := Except.ok.inj (hinfo.symm.trans hfound)
  obtain ⟨listed, hkind⟩ := (Schema.lookup_cases hinfo).resolve_left (by rintro rfl; cases family)
  obtain ⟨own, text, hown, htext⟩ :=
    exists_podSelector listed family (isWellFormed_of_get? wellFormed hkind hbody)
  obtain rfl := Except.ok.inj (hlabels.symm.trans hown)
  have accepted := accepted_of_no_rules unrefused
  refine ⟨info, body, hinfo, Cluster.get_of_accepted (accepted ..) hbody, ?_⟩
  unfold IsReadyBy
  rw [family]
  refine ⟨labels, text, _, hlabels, htext, Cluster.listPods_of_accepted _ _ (accepted ..), ?_⟩
  intro pod hpod
  rw [select_eq written htext, Cluster.byName, (Value.sortBy_perm _ _).mem_iff] at hpod
  obtain ⟨entry, hentry, rfl⟩ := List.mem_map.mp hpod
  obtain ⟨hmem, isPod⟩ := List.mem_filter.mp hentry
  have known : entry.1.kind = .text "Pod" := by
    rw [isPodOf, Bool.and_eq_true, Bool.and_eq_true] at isPod
    exact Value.eq_text_of_sameKey isPod.1.1
  rw [← Value.portable_of_isJson (wellFormed entry hmem "Pod" known).json]
  exact ready entry hmem isPod

/-- If a set is found ready, then each workload of it exists, and all pods in its namespace that
have the labels which it requires are ready. On a well-formed cluster that refuses no call this
is also enough, whatever the number of pods that the workloads ask for. -/
theorem isReady_pods (refs : RefSet) (s : State) :
    (((isReady refs).on s).1 = .ok true → ∀ ref ∈ refs, IsWorkload ref → ∃ labels,
      podLabels? s.store ref = some labels ∧
        ((∀ label ∈ labels, Schema.isRequirable label) → PodsReady s.store ref labels)) ∧
    (s.IsWellFormed → s.rules = [] →
      (∀ ref ∈ refs, ref.isTyped ∧ IsWorkload ref ∧ ∃ labels,
        podLabels? s.store ref = some labels ∧ (∀ label ∈ labels, Schema.isRequirable label) ∧
          PodsReady s.store ref labels) →
      ((isReady refs).on s).1 = .ok true) := by
  rw [on_isReady]
  constructor
  · intro h ref hmem workload
    rcases hrun : ((unready refs).on s).1 with failure | names
    · rw [hrun] at h
      cases h
    · rw [hrun] at h
      rw [List.isEmpty_iff.mp (Except.ok.inj h)] at hrun
      exact podsReady_of_unready hrun hmem workload
  · intro wellFormed unrefused h
    have readable : s.IsReadable :=
      Cluster.State.isReadable_of_rules wellFormed (by simp [unrefused])
    obtain ⟨ready, hready, ready_iff⟩ := exists_isReady readable fun ref hmem => (h ref hmem).1
    rw [← on_isReady, hready, ready_iff.mpr]
    intro ref hmem
    obtain ⟨-, workload, labels, hlabels, written, pods⟩ := h ref hmem
    exact isSatisfied_of_podsReady wellFormed unrefused workload hlabels written pods

/-- A controller whose pods have one label. -/
def webController : Value :=
  sampleWorkload "v1" "ReplicationController" "web" (.map [(.text "app", .text "web")])

/-- A controller with a ready pod is ready. -/
theorem isReady_pods_web :
    let controller := sampleRef "v1" "ReplicationController" "web"
    let pod := samplePod "web-1" [("app", "web")] "True"
    let s := sampleCluster [webController, pod]
    s.IsWellFormed ∧ IsWorkload controller ∧ ((isReady [controller]).on s).1 = .ok true ∧
      ∃ labels, podLabels? s.store controller = some labels ∧
        PodsReady s.store controller labels := by
  intro controller pod s
  have stored : ∀ entry ∈ s.store, entry = (Cluster.keyOfPlaced webController, webController) ∨
      entry = (Cluster.keyOfPlaced pod, pod) := by
    simp [s, sampleCluster]
  have wellFormed : s.IsWellFormed := by
    intro entry hmem kind hkind
    rcases stored entry hmem with rfl | rfl <;> cases hkind <;> decide +kernel
  have workload : IsWorkload controller := ⟨_, rfl, rfl⟩
  have written : ∀ label ∈ [(Value.text "app", Value.text "web")], Schema.isRequirable label := by
    decide
  have pods : PodsReady s.store controller [(.text "app", .text "web")] := by
    intro entry hmem isPod
    rcases stored entry hmem with rfl | rfl
    · cases isPod
    · exact toOption_eq_some_iff.mp (by decide +kernel)
  have ready : ((isReady [controller]).on s).1 = .ok true := by
    refine (isReady_pods [controller] s).2 wellFormed rfl ?_
    exact List.forall_mem_singleton.mpr ⟨rfl, workload, _, rfl, written, pods⟩
  obtain ⟨labels, hlabels, all⟩ :=
    (isReady_pods [controller] s).1 ready controller (List.mem_singleton.mpr rfl) workload
  obtain rfl : [(.text "app", .text "web")] = labels := Option.some.inj hlabels
  exact ⟨wellFormed, workload, ready, _, hlabels, all written⟩

/-- A controller that asks for a pod is ready before it has one. -/
theorem isReady_before_first_pod :
    let controller := sampleRef "v1" "ReplicationController" "web"
    let s := sampleCluster [webController]
    ((isReady [controller]).on s).1.toOption = some true ∧ IsWorkload controller ∧
      s.store.get? (.ofRef controller) = some webController ∧
      nested webController "spec" "replicas" = .ok (.int 1) ∧
      s.store.list "Pod" controller.space = [] :=
  ⟨by decide +kernel, ⟨_, rfl, rfl⟩, rfl, rfl, rfl⟩

/-! ### Pods that do not matter -/

/-- Whether a stored object is a pod that has not all labels of any of the workloads of a set. -/
def isForeign (live : Store) (refs : RefSet) (entry : Key × Value) : Bool :=
  entry.1.kind.equal false (.text "Pod") && refs.all fun ref =>
    !(podLabels? live ref).any fun labels => isPodOf ref labels entry

/-- Two stores with the same objects, except for pods that are foreign to the workloads of a
set. -/
def SameButForeign (refs : RefSet) (x y : Store) : Prop :=
  x.filter (fun entry => !isForeign x refs entry) = y.filter fun entry => !isForeign x refs entry

/-- No workload is a pod. -/
theorem kind_ne_pod : ∀ info ∈ Schema.registry, info.readiness = .selectedPods →
    info.kind ≠ "Pod" := by decide

section

variable {x y : Store} {refs : RefSet} (same : SameButForeign refs x y)

include same

theorem filter_eq_of_sameButForeign {p : Key × Value → Bool}
    (own : ∀ entry, p entry → isForeign x refs entry = false) : x.filter p = y.filter p := by
  have absorbs (store : Store) :
      store.filter p = (store.filter fun entry => !isForeign x refs entry).filter p := by
    rw [List.filter_filter]
    apply List.filter_congr
    intro entry _
    cases hp : p entry with
    | false => rfl
    | true =>
      rw [own entry hp]
      rfl
  rw [absorbs x, absorbs y, same]

theorem get?_eq_of_sameButForeign (workload : IsWorkload ref) :
    x.get? (.ofRef ref) = y.get? (.ofRef ref) := by
  obtain ⟨info, hinfo, family⟩ := workload
  obtain ⟨listed, hkind⟩ := (Schema.lookup_cases hinfo).resolve_left (by rintro rfl; cases family)
  have places : x.filter (fun entry => (Key.ofRef ref).same entry.1) =
      y.filter fun entry => (Key.ofRef ref).same entry.1 := by
    apply filter_eq_of_sameButForeign same
    intro entry hplace
    apply Bool.eq_false_iff.mpr
    intro foreign
    rw [Key.same, Bool.and_eq_true, Bool.and_eq_true] at hplace
    rw [isForeign, Bool.and_eq_true] at foreign
    have own : entry.1.kind = .text info.kind :=
      (Value.sameKey_text_left _ _).mp (hkind ▸ hplace.1.1)
    have pod : entry.1.kind = .text "Pod" := Value.eq_text_of_sameKey foreign.1
    exact kind_ne_pod info listed family (Value.text.inj (own.symm.trans pod))
  rw [Store.get?, Store.get?, ← List.head?_filter, ← List.head?_filter, places]

theorem select_eq_of_sameButForeign (hmem : ref ∈ refs) (hlabels : podLabels? x ref = some labels)
    {text : String} (written : ∀ label ∈ labels, Schema.isRequirable label)
    (htext : Schema.selectorText labels = .ok text) :
    x.select "Pod" ref.space text = y.select "Pod" ref.space text := by
  have own : x.filter (isPodOf ref labels) = y.filter (isPodOf ref labels) := by
    apply filter_eq_of_sameButForeign same
    intro entry hpod
    apply Bool.eq_false_iff.mpr
    intro foreign
    rw [isForeign, Bool.and_eq_true, List.all_eq_true] at foreign
    have apart := foreign.2 ref hmem
    rw [hlabels, Option.any_some, hpod] at apart
    cases apart
  rw [select_eq written htext, select_eq written htext, own]

end

/-- Clusters with two given stores whose rules have been tried on the same calls. -/
def WithStores (x y : Store) (s t : State) : Prop :=
  s.store = x ∧ t.store = y ∧ s.rules = t.rules

theorem lastsWhileRead_withStores (x y : Store) : LastsWhileRead (WithStores x y) where
  verdict h _ := by rw [State.verdict, State.verdict, h.2.2]
  heard h _ := ⟨h.1, h.2.1, by rw [State.heard, State.heard, h.2.2]⟩

/-- A set of workloads is found ready or not whatever pods there are that have not all labels of
any of them. -/
theorem isReady_eq_of_sameButForeign {refs : RefSet} {s t : State}
    (workloads : ∀ ref ∈ refs, IsWorkload ref)
    (written : ∀ ref ∈ refs, ∀ labels, podLabels? s.store ref = some labels →
      ∀ label ∈ labels, Schema.isRequirable label)
    (same : SameButForeign refs s.store t.store) (rules : s.rules = t.rules) :
    ((isReady refs).on s).1 = ((isReady refs).on t).1 := by
  have lasts := lastsWhileRead_withStores s.store t.store
  have related : WithStores s.store t.store s t := ⟨rfl, rfl, rules⟩
  suffices ∀ ref ∈ refs, Parallel (WithStores s.store t.store) (observe ref) from
    (parallel_isReady this s t related).1
  intro ref hmem
  apply parallel_observe lasts
  · intro s' t' related
    rw [related.1, related.2.1]
    exact get?_eq_of_sameButForeign same (workloads ref hmem)
  · intro body s' t' related hbody
    obtain ⟨info, hinfo, family⟩ := workloads ref hmem
    rw [related.1] at hbody
    rw [evidence]
    refine parallel_bind (parallel_ofFault _) fun found hfound => ?_
    obtain rfl : info = found := by
      obtain ⟨_, _, _, hfound⟩ := hfound
      rw [ofFault, on_ofExcept] at hfound
      exact Except.ok.inj (hinfo.symm.trans (liftFault_eq_ok.mp hfound))
    rw [family]
    refine parallel_bind (parallel_ofExcept _) fun labels hlabels => ?_
    obtain ⟨_, _, _, hlabels⟩ := hlabels
    have required := podLabels?_eq_some_iff.mpr ⟨info, body, hinfo, hbody, hlabels⟩
    have listed : Parallel (WithStores s.store t.store) (podsWith ref.space labels) := by
      apply parallel_podsWith lasts
      intro text htext s' t' related
      rw [related.1, related.2.1]
      exact select_eq_of_sameButForeign same hmem required (written ref hmem labels required) htext
    exact parallel_bind listed fun _ _ => parallel_pure _

/-- A cluster with a workload of one ready pod, and other pods. -/
def storeCluster (selector : Value) (others : List Value) : State :=
  sampleCluster ([sampleWorkload "apps/v1" "StatefulSet" "store" selector,
    samplePod "store-0" [("app", "store")] "True"] ++ others)

theorem isReady_eq_of_sameButForeign_store :
    let refs := [sampleRef "apps/v1" "StatefulSet" "store"]
    let selector := .map [(.text "matchLabels", .map [(.text "app", .text "store")])]
    let s := storeCluster selector []
    let t := storeCluster selector [samplePod "web-1" [("app", "web")] "False"]
    ((isReady refs).on s).1.toOption = some true ∧
      ((isReady refs).on s).1 = ((isReady refs).on t).1 := by
  intro refs selector s t
  refine ⟨by decide +kernel, ?_⟩
  refine isReady_eq_of_sameButForeign (List.forall_mem_singleton.mpr ⟨_, rfl, rfl⟩) ?_ rfl rfl
  intro ref hmem labels hlabels
  obtain rfl := List.mem_singleton.mp hmem
  obtain rfl : [(.text "app", .text "store")] = labels := Option.some.inj hlabels
  decide

/-- A label selector that has an expression and requires no labels. -/
def storeExpression : Value := .map [(.text "matchExpressions", .list [.map [
  (.text "key", .text "app"),
  (.text "operator", .text "In"),
  (.text "values", .list [.text "store"])]])]

/-- A pod that the selector excludes keeps a workload from being ready. -/
theorem isReady_depends_on_excluded_pod :
    let refs := [sampleRef "apps/v1" "StatefulSet" "store"]
    let pod := samplePod "web-1" [("app", "web")] "False"
    let s := storeCluster storeExpression []
    let t := storeCluster storeExpression [pod]
    Schema.expressionsOf storeExpression ≠ [] ∧
      Schema.isSelectedBy storeExpression pod = false ∧
      t.store = s.store ++ [(Cluster.keyOfPlaced pod, pod)] ∧ s.rules = t.rules ∧
      ((isReady refs).on s).1.toOption = some true ∧
      ((isReady refs).on t).1.toOption = some false :=
  ⟨nofun, by decide +kernel, rfl, rfl, by decide +kernel, by decide +kernel⟩

end Reconciler.Readiness

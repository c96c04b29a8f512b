import Reconciler.Proofs.Client.Building
import Reconciler.Proofs.Client.Updating
import Reconciler.Proofs.Readiness.Reading

/-!
# Objects that belong to someone else

An update may touch an object of the cluster only if the earlier manifest has its identity.
All other objects stay stored as they are, version included, however the update ends; where
pods are restarted, the pods of a workload may be deleted as well. An object of the second
manifest that turns out to belong to someone else ends the update with the call that found it.

A patch or a deletion is sent only for a target that the earlier manifest has, and creating
never replaces anything. `Contract.sparing` says what this leaves of the store, and each step
of an update meets it.
-/

namespace Reconciler

open Cluster (State Key Store Call NoWrite Called)

/-- Whether a call deletes the pod at a place. -/
def Cluster.Call.deletesPod (key : Key) : Call → Bool
  | .deletePod space name _ => Key.same ⟨.text "Pod", space, name⟩ key
  | _ => false

/-- No reference of a set has the identity of the object at a place. -/
def RefSet.IsForeign (refs : RefSet) (key : Key) : Prop :=
  ∀ ref ∈ refs, (Key.ofRef ref).same key = false

/-- A place at which there is no foreign object. -/
def RefSet.Owns (refs : RefSet) (key : Key) : Prop :=
  ∀ place, refs.IsForeign place → key.same place = false

theorem RefSet.owns_of_mem {refs : RefSet} {ref : Ref} (h : ref ∈ refs) :
    refs.Owns (Key.ofRef ref) :=
  fun _ foreign => foreign ref h

/-- What the earlier manifest has by identity is owned, whatever its body says. -/
theorem RefSet.owns_of_get? {refs : RefSet} {target old : Ref} (h : refs.get? target = some old) :
    refs.Owns (Key.ofRef target) := by
  intro place foreign
  refine Bool.eq_false_iff.mpr fun same => ?_
  have identity : old.sameIdentity target :=
    List.find?_some (p := fun candidate : Ref => candidate.sameIdentity target) h
  have hmem : old ∈ refs := List.mem_of_find?_eq_some h
  have apart := foreign old hmem
  rw [Key.same_of_sameIdentity identity same] at apart
  cases apart

/-! ### What each step leaves of the store -/

/-- Work that leaves foreign objects as they are, except for pods where those may be
deleted. -/
def Contract.sparing (refs : RefSet) (restartsPods : Bool) : Contract where
  allows s s' := ∃ new, s'.calls = s.calls ++ new ∧
    (s.IsQuiet → s'.IsQuiet ∧ ∀ entry ∈ s.store, refs.IsForeign entry.1 →
      entry ∈ s'.store ∨ restartsPods ∧ ∃ call ∈ new, call.deletesPod entry.1)
  fails _ := True
  refl s := ⟨[], by simp, fun quiet => ⟨quiet, fun entry hmem _ => .inl hmem⟩⟩
  trans := by
    rintro s t u ⟨new, hnew, kept⟩ ⟨later, hlater, keptLater⟩
    refine ⟨new ++ later, by rw [hlater, hnew, List.append_assoc], fun quiet => ?_⟩
    obtain ⟨quiet, kept⟩ := kept quiet
    obtain ⟨quiet, keptLater⟩ := keptLater quiet
    refine ⟨quiet, fun entry hmem foreign => ?_⟩
    rcases kept entry hmem foreign with hmem | ⟨restarts, call, hcall, deletes⟩
    · rcases keptLater entry hmem foreign with hmem | ⟨restarts, call, hcall, deletes⟩
      · exact .inl hmem
      · exact .inr ⟨restarts, call, List.mem_append_right _ hcall, deletes⟩
    · exact .inr ⟨restarts, call, List.mem_append_left _ hcall, deletes⟩

namespace Client

open Session
open Contract (sparing)

variable {refs : RefSet} {restartsPods : Bool}

/-- A call is sparing if its write spares each foreign object. -/
theorem sparing_of_called {call : Call} {writes : Store → Store → Prop} {s s' : State}
    (h : Called call writes s s')
    (spares : ∀ entry ∈ s.store, refs.IsForeign entry.1 → writes s.store s'.store →
      entry ∈ s'.store ∨ restartsPods ∧ call.deletesPod entry.1) :
    (sparing refs restartsPods).allows s s' := by
  refine ⟨[call], h.calls, fun quiet => ⟨fun changes hmem => quiet changes (h.ticks ▸ hmem), ?_⟩⟩
  intro entry hmem foreign
  rcases h.store with store | written
  · exact .inl (store ▸ hmem)
  · refine (spares entry hmem foreign written).imp_right fun ⟨restarts, deletes⟩ => ?_
    exact ⟨restarts, call, List.mem_singleton_self call, deletes⟩

theorem sparing_read {call : Call} {s s' : State} (h : Called call NoWrite s s') :
    (sparing refs restartsPods).allows s s' :=
  sparing_of_called h fun _ _ _ written => written.elim

/-- A created object takes no one's place. -/
theorem sparing_create (key : Key) (body : Value) (s : State) :
    (sparing refs restartsPods).allows s (Cluster.create key body s).2 := by
  refine sparing_of_called (Cluster.called_create key body s) fun entry hmem _ written => ?_
  obtain ⟨absent, object, heq⟩ := written
  rw [heq]
  exact .inl (Store.mem_put hmem (Store.not_same_of_get? absent hmem) object)

theorem sparing_patch {key : Key} (owned : refs.Owns key) (body : Value) (contentType : String)
    (s : State) :
    (sparing refs restartsPods).allows s (Cluster.patch key body contentType s).2 := by
  refine sparing_of_called (Cluster.called_patch key body contentType s)
    fun entry hmem foreign written => ?_
  obtain ⟨-, object, heq⟩ := written
  rw [heq]
  exact .inl (Store.mem_put hmem (owned entry.1 foreign) object)

theorem sparing_delete {key : Key} (owned : refs.Owns key) (propagation : String) (s : State) :
    (sparing refs restartsPods).allows s (Cluster.delete key propagation s).2 := by
  refine sparing_of_called (Cluster.called_delete key propagation s)
    fun entry hmem foreign written => ?_
  rw [written]
  exact .inl (Store.mem_remove hmem (owned entry.1 foreign))

/-- Deleting a pod takes at most that pod. -/
theorem sparing_deletePod (space name uid : Value) (s : State) :
    (sparing refs true).allows s (Cluster.deletePod space name uid s).2 := by
  refine sparing_of_called (Cluster.called_deletePod space name uid s)
    fun entry hmem foreign written => ?_
  rw [written]
  by_cases same : Key.same ⟨.text "Pod", space, name⟩ entry.1
  · exact .inr ⟨rfl, same⟩
  · exact .inl (Store.mem_remove hmem (Bool.eq_false_iff.mpr same))

theorem permits_sparing (target : Ref) : (sparing refs restartsPods).Permits target where
  get s := sparing_read (Cluster.called_get _ s)
  create body s := sparing_create _ body s
  fails _ := trivial

theorem permitsWrites_sparing {target : Ref} (owned : refs.Owns (Key.ofRef target)) :
    (sparing refs restartsPods).PermitsWrites target where
  patch body contentType s := sparing_patch owned body contentType s
  delete propagation s := sparing_delete owned propagation s

theorem restartPods_sparing (target : Ref) : (restartPods target).Meets (sparing refs true) :=
  meets_restartPods
    ⟨fun _ _ s => sparing_read (Cluster.called_listPods _ _ s),
      fun _ _ _ => sparing_deletePod _ _ _⟩
    (fun _ => trivial) (fun _ => trivial) fun _ _ _ => trivial

theorem reconcile_sparing (client : Client) (options : UpdateOptions) (earlier : RefSet)
    (target : Ref) :
    (client.reconcile options earlier target).Meets (sparing earlier options.restartsPods) := by
  refine meets_reconcile (permits_sparing target) client options earlier fun old found => ?_
  have writes : (sparing earlier options.restartsPods).PermitsWrites target :=
    permitsWrites_sparing (RefSet.owns_of_get? found)
  refine meets_updateObject (permits_sparing target) writes client options (fun asked sent => ?_)
    old.body fun _ _ => trivial
  rw [asked]
  exact restartPods_sparing sent

/-- Waiting spares everything. -/
theorem sparing_of_reading {work : Session α} (h : work.Meets Contract.reading) :
    work.Meets (sparing refs restartsPods) := by
  refine h.weaken (fun s t ⟨⟨new, calls, _⟩, kept⟩ => ⟨new, calls, fun quiet => ?_⟩)
    fun _ _ => trivial
  obtain ⟨quiet, store⟩ := kept quiet
  exact ⟨quiet, fun entry hmem _ => .inl (store ▸ hmem)⟩

theorem updateRefs_sparing (client : Client) (options : UpdateOptions) (earlier target : RefSet) :
    (client.updateRefs options earlier target).Meets (sparing earlier options.restartsPods) := by
  refine meets_bind (meets_visit fun ref _ => reconcile_sparing client options earlier ref) ?_
  refine meets_conclude (fun ref hmem propagation s => ?_) (fun _ => trivial) client options
    fun sent => sparing_of_reading (client.meets_waitIf _ _ _)
  have own : ref ∈ earlier := ((RefSet.mem_difference _ _ ref).mp hmem).1
  exact sparing_delete (RefSet.owns_of_mem own) propagation s

/-- A target that exists but that the earlier manifest has not ends the visit of all targets
with the call that found it. -/
theorem on_reconcile_of_orphan (client : Client) (options : UpdateOptions) {earlier : RefSet}
    {target : Ref} {s s' : State} {found : Value} (absent : earlier.get? target = none)
    (hget : Cluster.get (.ofRef target) s = (.ok found, s')) :
    (client.reconcile options earlier target).on s = (.error (.about target .orphan), s') := by
  rw [reconcile, on_bind, on_lift, hget]
  dsimp only [settle]
  rw [absent]
  rfl

/-- An object that is stored before an update and that the earlier manifest has not is stored
unchanged after it, however the update ends; only pods may be deleted, where pods are
restarted. If such an object is found for a target, the update ends with the call that found
it. -/
theorem update_keeps_foreign_objects (client : Client) (space : Value)
    (original target : Manifest.Source) (options : UpdateOptions) (s : State) (quiet : s.IsQuiet)
    (entry : Key × Value) (stored : entry ∈ s.store)
    (foreign : ∀ earlier, builtOn s space original = .ok earlier → earlier.IsForeign entry.1) :
    (∃ new, ((client.update space original target options).on s).2.calls = s.calls ++ new ∧
      (entry ∈ ((client.update space original target options).on s).2.store ∨
        options.restartsPods ∧ ∃ call ∈ new, call.deletesPod entry.1)) ∧
    ∀ earlier before met after outcomes s₁ found s₂,
      builtOn s space original = .ok earlier →
      builtOn s space target = .ok (before ++ met :: after) →
      (visit (client.reconcile options earlier) before).on s = (.ok outcomes, s₁) →
      (Key.ofRef met).same entry.1 → Cluster.get (.ofRef met) s₁ = (.ok found, s₂) →
      (client.update space original target options).on s = (.error (.about met .orphan), s₂) ∧
        s₂.calls = s₁.calls ++ [.get (.ofRef met)] := by
  constructor
  · obtain ⟨first, hfirst, first_iff⟩ := on_buildForUpdate space original s
    have unbuilt : ∀ failure : Failure, ∃ new, s.calls = s.calls ++ new ∧
        (entry ∈ s.store ∨ options.restartsPods ∧ ∃ call ∈ new, call.deletesPod entry.1) :=
      fun _ => ⟨[], by simp, .inl stored⟩
    rw [update, on_bind, hfirst]
    cases first with
    | error failure => exact unbuilt failure
    | ok earlier =>
      have built := (first_iff earlier).mp rfl
      obtain ⟨second, hsecond, -⟩ := on_buildForUpdate space target s
      dsimp only
      rw [on_bind, hsecond]
      cases second with
      | error failure => exact unbuilt failure
      | ok targets =>
        obtain ⟨⟨new, calls, kept⟩, -⟩ := updateRefs_sparing client options earlier targets s
        exact ⟨new, calls, (kept quiet).2 entry stored (foreign earlier built)⟩
  · intro earlier before met after outcomes s₁ found s₂ built builtTarget hbefore same hget
    have absent : earlier.get? met = none := by
      cases hfound : earlier.get? met with
      | none => rfl
      | some old =>
        have owned := RefSet.owns_of_get? hfound entry.1 (foreign earlier built)
        rw [same] at owned
        cases owned
    have last := on_reconcile_of_orphan client options absent hget
    constructor
    · rw [on_update client space original target options built builtTarget, updateRefs,
        visit_append, visit_cons]
      simp only [on_bind, hbefore, last]
    · have called := Cluster.called_get (.ofRef met) s₁
      rw [hget] at called
      exact called.calls

/-- The place of a config map of some name. -/
def configKey (name : String) : Key := ⟨.text "ConfigMap", .text "default", .text name⟩

/-- A config map of some name. -/
def configMap (name : String) : Value := .map [(.text "apiVersion", .text "v1"),
  (.text "kind", .text "ConfigMap"), (.text "metadata", .map [(.text "name", .text name),
    (.text "namespace", .text "default"), (.text "resourceVersion", .text "7")])]

/-- A manifest with a config map of some name. -/
def configText (name : String) : String :=
  "apiVersion: v1\nkind: ConfigMap\nmetadata:\n  name: " ++ name ++ "\n"

/-- A cluster with an object of the client and one of someone else. -/
def sharedCluster : State where
  store := [(configKey "mine", configMap "mine"), (configKey "theirs", configMap "theirs")]

/-- Whether the only target is theirs, and is found. -/
def findsTheirs (earlier targets : Except Failure RefSet) : Bool :=
  match earlier, targets with
  | .ok earlier, .ok [met] =>
    (earlier.all fun ref => !(Key.ofRef ref).same (configKey "theirs")) &&
      (Key.ofRef met).same (configKey "theirs") &&
      (Cluster.get (.ofRef met) sharedCluster).1.isOk
  | _, _ => false

theorem update_keeps_theirs : ∃ met s, (({} : Client).update .null (.text (configText "mine"))
    (.text (configText "theirs")) {}).on sharedCluster = (.error (.about met .orphan), s) ∧
      (configKey "theirs", configMap "theirs") ∈ s.store := by
  obtain ⟨first, second, built, builtTarget, checked⟩ : ∃ first second,
      builtOn sharedCluster .null (.text (configText "mine")) = first ∧
      builtOn sharedCluster .null (.text (configText "theirs")) = second ∧
      findsTheirs first second = true := ⟨_, _, rfl, rfl, by decide +kernel⟩
  unfold findsTheirs at checked
  split at checked
  · rename_i earlier met
    rw [Bool.and_eq_true, Bool.and_eq_true] at checked
    obtain ⟨⟨foreign, same⟩, reached⟩ := checked
    obtain ⟨kept, orphaned⟩ := update_keeps_foreign_objects {} .null
      (.text (configText "mine")) (.text (configText "theirs")) {} sharedCluster
      (by simp [State.IsQuiet, sharedCluster]) (configKey "theirs", configMap "theirs")
      (by simp [sharedCluster]) (fun refs hrefs ref hmem => by
        obtain rfl := Except.ok.inj (built.symm.trans hrefs)
        simpa using List.all_eq_true.mp foreign ref hmem)
    rcases hget : Cluster.get (.ofRef met) sharedCluster with ⟨refusal | found, s₂⟩
    · rw [hget] at reached
      cases reached
    · obtain ⟨run, -⟩ := orphaned earlier [] met [] [] sharedCluster found s₂ built builtTarget
        rfl same hget
      rw [run] at kept
      obtain ⟨new, -, hstored | ⟨restarts, -⟩⟩ := kept
      · exact ⟨met, s₂, run, hstored⟩
      · cases restarts
  · cases checked

end Client

end Reconciler

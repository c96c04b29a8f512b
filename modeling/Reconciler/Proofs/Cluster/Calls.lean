import Reconciler.Cluster.Api
import Reconciler.Proofs.Cluster.Store

/-!
# What calls do

Every call is recorded, moves no clock and writes to the store in one way at most; the default
namespace stays what it is. `Called` says so for each kind of call; whether a rule refuses the
call makes no difference to it.
-/

namespace Reconciler.Cluster

/-- What a call makes of a cluster, where `writes` is what it may make of the store. -/
structure Called (call : Call) (writes : Store → Store → Prop) (s s' : State) : Prop where
  calls : s'.calls = s.calls ++ [call]
  ticks : s'.ticks = s.ticks
  clock : s'.clock = s.clock
  discovery : s'.discovery = s.discovery
  store : s'.store = s.store ∨ writes s.store s'.store

/-- What reading makes of the store. -/
def NoWrite (_ _ : Store) : Prop := False

theorem Called.store_eq {call : Call} {s s' : State} (h : Called call NoWrite s s') :
    s'.store = s.store := h.store.resolve_right id

theorem called_perform {verb : Verb} {kind name : Value} {call : Call}
    {act : State → Reply α × State} {writes : Store → Store → Prop}
    (h : ∀ s, (act s).2.calls = s.calls ∧ (act s).2.ticks = s.ticks ∧
      (act s).2.clock = s.clock ∧ (act s).2.discovery = s.discovery ∧
      ((act s).2.store = s.store ∨ writes s.store (act s).2.store)) (s : State) :
    Called call writes s (perform verb kind name call act s).2 := by
  rcases hrules : tryRules verb kind name s.rules with ⟨_ | refusal, rules⟩
  · rw [perform_of_accepted hrules]
    obtain ⟨calls, ticks, clock, discovery, store⟩ := h { s.record call with rules }
    exact ⟨calls, ticks, clock, discovery, store⟩
  · rw [perform_of_refused hrules]
    exact ⟨rfl, rfl, rfl, rfl, .inl rfl⟩

theorem called_read {verb : Verb} {kind name : Value} {call : Call} (answer : State → Reply α)
    (s : State) : Called call NoWrite s (perform verb kind name call (unchanged answer) s).2 :=
  called_perform (fun _ => ⟨rfl, rfl, rfl, rfl, .inl rfl⟩) s

theorem called_get (key : Key) (s : State) : Called (.get key) NoWrite s (get key s).2 :=
  called_read _ s

theorem called_listPods (space : Value) (selector : String) (s : State) :
    Called (.listPods space selector) NoWrite s (listPods space selector s).2 :=
  called_read _ s

theorem called_readDeployment (space name : Value) (s : State) :
    Called (.readDeployment space name) NoWrite s (readDeployment space name s).2 :=
  called_read _ s

theorem called_listReplicaSets (space : Value) (selector : String) (s : State) :
    Called (.listReplicaSets space selector) NoWrite s (listReplicaSets space selector s).2 :=
  called_read _ s

/-- Only an object that is not there is created. -/
theorem called_create (key : Key) (body : Value) (s : State) :
    Called (.create key)
      (fun old new => old.get? key = none ∧ ∃ object, new = old.put key object) s
      (create key body s).2 := by
  refine called_perform (fun s => ?_) s
  unfold State.create
  split
  · exact ⟨rfl, rfl, rfl, rfl, .inl rfl⟩
  · rename_i absent
    exact ⟨rfl, rfl, rfl, rfl, .inr ⟨absent, _, rfl⟩⟩

/-- Only an object that is there is patched. -/
theorem called_patch (key : Key) (body : Value) (contentType : String) (s : State) :
    Called (.patch key body contentType)
      (fun old new => (old.get? key).isSome ∧ ∃ object, new = old.put key object) s
      (patch key body contentType s).2 := by
  refine called_perform (fun s => ?_) s
  unfold State.patch
  split
  · rename_i object present
    exact ⟨rfl, rfl, rfl, rfl, .inr ⟨by rw [present]; rfl, _, rfl⟩⟩
  · exact ⟨rfl, rfl, rfl, rfl, .inl rfl⟩

theorem called_delete (key : Key) (propagation : String) (s : State) :
    Called (.delete key (deleteOptions propagation)) (fun old new => new = old.remove key) s
      (delete key propagation s).2 := by
  refine called_perform (fun s => ?_) s
  unfold State.delete
  split
  · exact ⟨rfl, rfl, rfl, rfl, .inr rfl⟩
  · exact ⟨rfl, rfl, rfl, rfl, .inl rfl⟩

theorem called_deletePod (space name uid : Value) (s : State) :
    Called (.deletePod space name uid)
      (fun old new => new = old.remove ⟨.text "Pod", space, name⟩) s
      (deletePod space name uid s).2 :=
  called_perform (fun _ => ⟨rfl, rfl, rfl, rfl, .inr rfl⟩) s

/-! ### What answers say -/

/-- A call with an answer was not refused. -/
theorem perform_eq_ok {verb : Verb} {kind name : Value} {call : Call}
    {act : State → Reply α × State} {s s' : State} {answer : α}
    (h : perform verb kind name call act s = (.ok answer, s')) :
    ∃ rules, act { s.record call with rules } = (.ok answer, s') := by
  rcases hrules : tryRules verb kind name s.rules with ⟨_ | refusal, rules⟩
  · rw [perform_of_accepted hrules] at h
    exact ⟨rules, h⟩
  · rw [perform_of_refused hrules] at h
    cases h

theorem find_eq_ok {s : State} {key : Key} {body : Value} (h : s.find key = .ok body) :
    s.store.get? key = some body := by
  unfold State.find at h
  split at h
  · rename_i object found
    cases h
    exact found
  · cases h

variable {s s' : State}

theorem get_eq_ok {key : Key} {body : Value} (h : get key s = (.ok body, s')) :
    s.store.get? key = some body := by
  obtain ⟨rules, hact⟩ := perform_eq_ok h
  exact find_eq_ok (congrArg Prod.fst hact)

theorem readDeployment_eq_ok {space name object : Value}
    (h : readDeployment space name s = (.ok object, s')) :
    s.store.get? ⟨.text "Deployment", space, name⟩ = some object := by
  obtain ⟨rules, hact⟩ := perform_eq_ok h
  exact find_eq_ok (congrArg Prod.fst hact)

/-- What is listed is what is stored when the call is made. -/
theorem listPods_eq_ok {space : Value} {selector : String} {s s' : State} {pods : List Value}
    (h : listPods space selector s = (.ok pods, s')) :
    pods = s.store.select "Pod" space selector := by
  obtain ⟨rules, hact⟩ := perform_eq_ok h
  cases hact
  rfl

theorem listReplicaSets_eq_ok {space : Value} {selector : String} {replicaSets : List Value}
    (h : listReplicaSets space selector s = (.ok replicaSets, s')) :
    replicaSets = s.store.select "ReplicaSet" space selector := by
  obtain ⟨rules, hact⟩ := perform_eq_ok h
  cases hact
  rfl

end Reconciler.Cluster

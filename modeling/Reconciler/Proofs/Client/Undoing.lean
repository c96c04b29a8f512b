import Reconciler.Client.Create
import Reconciler.Proofs.Client.Isolation
import Reconciler.Proofs.Client.Returning

/-!
# Deleting undoes creating

What a client creates from a manifest it can delete by the same manifest, also if the creation
ended at an object that the server refused: the objects before it are stored, and those after it
have not been tried. The deletion goes through all objects, and those that were never created
are passed over.

The rules of a cluster say in advance which calls they refuse. What they say to the calls of one
verb, one for each object in order, decides how far a creation gets, and afterwards which objects
a deletion leaves.
-/

namespace Reconciler

open Cluster (State Key Store Call Rule Verb)

namespace Cluster

/-- There is no object at a place, and one that is stored there will be found. The latter is so
unless a part of the place is not a number, which does not even equal itself. -/
structure Store.IsFreeAt (store : Store) (key : Key) : Prop where
  findable : key.same key
  absent : store.get? key = none

theorem Store.IsFreeAt.put {store : Store} {key other : Key} (h : store.IsFreeAt other)
    (apart : key.same other = false) (object : Value) :
    (store.put key object).IsFreeAt other :=
  ⟨h.findable, (get?_put_of_not_same apart object).trans h.absent⟩

/-- A cluster after an object has been created, with the rules as they are then. -/
def State.created (s : State) (key : Key) (body : Value) (rules : List Rule) : State :=
  { s.record (.create key) with
    store := s.store ++ [(key, writeVersion body (s.counter + 1))]
    counter := s.counter + 1
    rules }

/-- A free place is taken unless the rules refuse it. -/
theorem create_of_accepted {key : Key} (body : Value) {s : State} {rules : List Rule}
    (free : s.store.IsFreeAt key)
    (h : tryRules .create key.kind key.name s.rules = (none, rules)) :
    create key body s = (.ok (writeVersion body (s.counter + 1)), s.created key body rules) := by
  have found : Store.get? (s.store ++ [(key, writeVersion body (s.counter + 1))]) key =
      some (writeVersion body (s.counter + 1)) := by
    rw [← Store.put_of_none free.absent, Store.get?_put_of_none free.absent,
      if_pos free.findable]
  rw [create, perform_of_accepted h, State.create]
  simp only [State.created, State.record, free.absent, State.stamp, State.find,
    Store.put_of_none free.absent, found]

/-- A cluster after an object has been deleted, with the rules as they are then. -/
def State.deleted (s : State) (key : Key) (propagation : String) (rules : List Rule) : State :=
  { s.record (.delete key (deleteOptions propagation)) with
    store := s.store.remove key
    rules }

/-- Unless the rules refuse it, an object is deleted if it is there, and absent if not. -/
theorem delete_of_accepted {key : Key} {s : State} {rules : List Rule}
    (h : tryRules .delete key.kind key.name s.rules = (none, rules)) (propagation : String) :
    (delete key propagation s = (.ok (), s.deleted key propagation rules)) ∨
      (delete key propagation s = (.error absent, s.deleted key propagation rules)) := by
  rw [delete, perform_of_accepted h, State.delete]
  cases hfound : s.store.get? key with
  | some object =>
    apply Or.inl
    simp only [State.deleted, State.record, hfound]
  | none =>
    apply Or.inr
    simp only [State.deleted, State.record, hfound, Store.remove_of_none hfound]

/-- The entries of objects that are stored one after another. -/
def Store.stamped (counter : Nat) : RefSet → Store
  | [] => []
  | ref :: rest => (.ofRef ref, writeVersion ref.body (counter + 1)) :: stamped (counter + 1) rest

theorem Store.exists_ref_of_mem_stamped {counter : Nat} {refs : RefSet} {entry : Key × Value}
    (h : entry ∈ Store.stamped counter refs) : ∃ ref ∈ refs, entry.1 = .ofRef ref := by
  induction refs generalizing counter with
  | nil => cases h
  | cons ref rest ih =>
    cases h with
    | head => exact ⟨ref, List.mem_cons_self .., rfl⟩
    | tail _ h =>
      obtain ⟨other, hmem, heq⟩ := ih h
      exact ⟨other, List.mem_cons_of_mem _ hmem, heq⟩

/-- What rules say to calls of a verb, one for each reference in order. -/
def verdictsOn (verb : Verb) : RefSet → List Rule → List (Ref × Option ApiRefusal)
  | [], _ => []
  | ref :: rest, rules =>
    let (refusal, rules) := tryRules verb ref.kind ref.name rules
    (ref, refusal) :: verdictsOn verb rest rules

theorem map_verdictsOn (verb : Verb) (refs : RefSet) (rules : List Rule) :
    (verdictsOn verb refs rules).map (·.1) = refs := by
  induction refs generalizing rules with
  | nil => rfl
  | cons ref rest ih => rw [verdictsOn, List.map_cons, ih]

theorem mem_of_verdictsOn {verb : Verb} {refs : RefSet} {rules : List Rule}
    {verdict : Ref × Option ApiRefusal} (h : verdict ∈ verdictsOn verb refs rules) :
    verdict.1 ∈ refs :=
  map_verdictsOn verb refs rules ▸ List.mem_map_of_mem h

theorem exists_verdictsOn {verb : Verb} {refs : RefSet} (rules : List Rule) {ref : Ref}
    (h : ref ∈ refs) : ∃ verdict ∈ verdictsOn verb refs rules, verdict.1 = ref := by
  rw [← map_verdictsOn verb refs rules] at h
  exact List.mem_map.mp h

end Cluster

/-! ### Creating up to the first refusal -/

namespace Client

open Session
open Cluster (verdictsOn)

/-- The references before the first one that is refused. -/
def accepted (verdicts : List (Ref × Option ApiRefusal)) : RefSet :=
  (verdicts.takeWhile (·.2.isNone)).map (·.1)

/-- The first reference that is refused. -/
def refused? (verdicts : List (Ref × Option ApiRefusal)) : Option (Ref × ApiRefusal) :=
  verdicts.findSome? fun verdict => verdict.2.map (verdict.1, ·)

/-- The calls that create objects up to the first refusal. -/
def creations (verdicts : List (Ref × Option ApiRefusal)) : List Call :=
  (accepted verdicts ++ (refused? verdicts).toList.map (·.1)).map fun ref => .create (.ofRef ref)

@[simp] theorem accepted_cons_none (ref : Ref) (verdicts : List (Ref × Option ApiRefusal)) :
    accepted ((ref, none) :: verdicts) = ref :: accepted verdicts := rfl

@[simp] theorem accepted_cons_some (ref : Ref) (refusal : ApiRefusal)
    (verdicts : List (Ref × Option ApiRefusal)) :
    accepted ((ref, some refusal) :: verdicts) = [] := rfl

@[simp] theorem refused?_cons_none (ref : Ref) (verdicts : List (Ref × Option ApiRefusal)) :
    refused? ((ref, none) :: verdicts) = refused? verdicts := rfl

@[simp] theorem refused?_cons_some (ref : Ref) (refusal : ApiRefusal)
    (verdicts : List (Ref × Option ApiRefusal)) :
    refused? ((ref, some refusal) :: verdicts) = some (ref, refusal) := rfl

theorem mem_of_mem_accepted {verb : Verb} {refs : RefSet} {rules : List Rule} {ref : Ref}
    (h : ref ∈ accepted (verdictsOn verb refs rules)) : ref ∈ refs := by
  obtain ⟨verdict, hmem, rfl⟩ := List.mem_map.mp h
  exact Cluster.mem_of_verdictsOn ((List.takeWhile_sublist _).subset hmem)

/-- If nothing is refused, everything is accepted. -/
theorem accepted_eq_of_refused? {verb : Verb} {refs : RefSet} {rules : List Rule}
    (h : refused? (verdictsOn verb refs rules) = none) :
    accepted (verdictsOn verb refs rules) = refs := by
  induction refs generalizing rules with
  | nil => rfl
  | cons ref rest ih =>
    rw [verdictsOn] at h ⊢
    cases hrules : Cluster.tryRules verb ref.kind ref.name rules with
    | mk refusal later =>
      rw [hrules] at h
      cases refusal with
      | none => exact congrArg (ref :: ·) (ih h)
      | some refusal => cases h

variable {client : Client} {ref : Ref} {refs : RefSet} {s : State} {rules : List Rule}

theorem on_createObject_of_accepted (free : s.store.IsFreeAt (.ofRef ref))
    (h : Cluster.tryRules .create ref.kind ref.name s.rules = (none, rules))
    (cause : ApiRefusal → Cause) : (createObject ref cause).on s =
      (.ok (ref.refresh (Cluster.writeVersion ref.body (s.counter + 1))),
        s.created (.ofRef ref) ref.body rules) := by
  have hcreate := Cluster.create_of_accepted ref.body free h
  rw [createObject, on_bind, on_call, hcreate]
  rfl

theorem on_createObject_of_refused {refusal : ApiRefusal}
    (h : Cluster.tryRules .create ref.kind ref.name s.rules = (some refusal, rules))
    (cause : ApiRefusal → Cause) : (createObject ref cause).on s =
      (.error (.about ref (cause refusal)), { s.record (.create (.ofRef ref)) with rules }) := by
  have hcreate : Cluster.create (.ofRef ref) ref.body s =
      (.error refusal, { s.record (.create (.ofRef ref)) with rules }) :=
    Cluster.perform_of_refused h
  rw [createObject, on_bind, on_call, hcreate]
  rfl

/-- What a run that creates objects comes to: it stores those before the first refusal and makes
no call after it. -/
structure Creates (refs : RefSet) (s : State) (run : Except Failure RefSet × State) : Prop where
  store : run.2.store =
    s.store ++ Store.stamped s.counter (accepted (verdictsOn .create refs s.rules))
  calls : run.2.calls = s.calls ++ creations (verdictsOn .create refs s.rules)
  ticks : run.2.ticks = s.ticks
  discovery : run.2.discovery = s.discovery
  refused : ∀ ref refusal, refused? (verdictsOn .create refs s.rules) = some (ref, refusal) →
    run.1 = .error (.about ref (.createRefused refusal))
  accepted : refused? (verdictsOn .create refs s.rules) = none →
    ∃ sent, run.1 = .ok sent ∧ sent.map Ref.bare = refs.map Ref.bare

theorem creates_visit (distinct : Manifest.Distinct refs)
    (free : ∀ ref ∈ refs, s.store.IsFreeAt (.ofRef ref)) :
    Creates refs s ((visit (fun ref => createObject ref .createRefused) refs).on s) := by
  induction refs generalizing s with
  | nil =>
    exact ⟨(List.append_nil _).symm, (List.append_nil _).symm, rfl, rfl, nofun,
      fun _ => ⟨[], rfl, rfl⟩⟩
  | cons ref rest ih =>
    obtain ⟨first, others⟩ := List.forall_mem_cons.mp free
    obtain ⟨apart, distinct⟩ := List.pairwise_cons.mp distinct
    rcases hrules : Cluster.tryRules .create ref.kind ref.name s.rules with ⟨refusal, rules⟩
    have verdicts : verdictsOn .create (ref :: rest) s.rules =
        (ref, refusal) :: verdictsOn .create rest rules := by
      rw [verdictsOn, hrules]
    cases refusal with
    | some refusal =>
      rw [visit_cons, on_bind, on_createObject_of_refused hrules]
      refine ⟨?_, ?_, rfl, rfl, ?_, ?_⟩
      · rw [verdicts, accepted_cons_some]
        exact (List.append_nil _).symm
      · rw [verdicts]
        rfl
      · rintro other refusal' h
        rw [verdicts] at h
        cases h
        rfl
      · intro h
        rw [verdicts] at h
        cases h
    | none =>
      rw [visit_cons, on_bind, on_createObject_of_accepted first hrules]
      have later : ∀ other ∈ rest,
          (s.created (.ofRef ref) ref.body rules).store.IsFreeAt (.ofRef other) := by
        intro other hmem
        rw [State.created, ← Store.put_of_none first.absent]
        refine (others other hmem).put (Bool.eq_false_iff.mpr fun same => ?_) _
        exact Bool.eq_false_iff.mp (apart other hmem) (Key.sameIdentity_of_same same)
      obtain ⟨store, calls, ticks, discovery, refused, accepted⟩ := ih distinct later
      dsimp only
      rw [on_bind_pure]
      refine ⟨?_, ?_, ticks, discovery, ?_, ?_⟩
      · rw [verdicts, accepted_cons_none, Store.stamped, store, State.created, List.append_assoc]
        rfl
      · rw [verdicts, calls, State.created, State.calls_record, List.append_assoc]
        rfl
      · intro other refusal h
        rw [verdicts, refused?_cons_none] at h
        rw [refused other refusal h]
        rfl
      · intro h
        rw [verdicts, refused?_cons_none] at h
        obtain ⟨sent, given, same⟩ := accepted h
        refine ⟨_, congrArg (Except.map _) given, ?_⟩
        rw [List.map_cons, List.map_cons, same]
        rfl

/-! ### Deleting what is there -/

/-- Whether a deletion that is not refused is of the object at a place. -/
def deletes (verdicts : List (Ref × Option ApiRefusal)) (key : Key) : Bool :=
  verdicts.any fun verdict => verdict.2.isNone && (Key.ofRef verdict.1).same key

theorem deletes_cons_none (ref : Ref) (verdicts : List (Ref × Option ApiRefusal)) (key : Key) :
    deletes ((ref, none) :: verdicts) key = ((Key.ofRef ref).same key || deletes verdicts key) :=
  rfl

theorem on_deleteIfThere_of_accepted (client : Client)
    (h : Cluster.tryRules .delete ref.kind ref.name s.rules = (none, rules)) :
    (client.deleteIfThere ref).on s =
      (.ok (), s.deleted (.ofRef ref) client.settings.propagation rules) := by
  rw [deleteIfThere, on_bind, on_lift, deleteObject]
  obtain found | missing :=
    @Cluster.delete_of_accepted (.ofRef ref) s rules h client.settings.propagation
  · rw [found]
    rfl
  · rw [missing]
    rfl

theorem on_deleteIfThere_of_absence (client : Client) {refusal : ApiRefusal}
    (h : Cluster.tryRules .delete ref.kind ref.name s.rules = (some refusal, rules))
    (absence : refusal.isAbsence) : (client.deleteIfThere ref).on s =
      (.ok (), { s.record (.delete (.ofRef ref)
        (Cluster.deleteOptions client.settings.propagation)) with rules }) := by
  have hdelete : client.deleteObject ref s = (.error refusal, { s.record (.delete (.ofRef ref)
      (Cluster.deleteOptions client.settings.propagation)) with rules }) := by
    rw [deleteObject, Cluster.delete]
    exact Cluster.perform_of_refused h
  rw [deleteIfThere, on_bind, on_lift, hdelete]
  dsimp only
  rw [if_pos absence]
  rfl

/-- If no deletion is refused but for the absence of its object, all are tried. What is left are
the objects that no accepted deletion is of. -/
theorem on_visit_deleteIfThere (client : Client)
    (mild : ∀ verdict ∈ verdictsOn .delete refs s.rules, ∀ refusal,
      verdict.2 = some refusal → refusal.isAbsence) :
    ∃ units s', (visit client.deleteIfThere refs).on s = (.ok units, s') ∧
      s'.store = s.store.filter
        (fun entry => !deletes (verdictsOn .delete refs s.rules) entry.1) ∧
      s'.calls = s.calls ++ client.deletions refs := by
  induction refs generalizing s with
  | nil =>
    exact ⟨[], s, rfl, (List.filter_eq_self.mpr fun _ _ => rfl).symm, (List.append_nil _).symm⟩
  | cons ref rest ih =>
    rcases hrules : Cluster.tryRules .delete ref.kind ref.name s.rules with ⟨refusal, rules⟩
    have verdicts : verdictsOn .delete (ref :: rest) s.rules =
        (ref, refusal) :: verdictsOn .delete rest rules := by
      rw [verdictsOn, hrules]
    rw [verdicts] at mild
    obtain ⟨first, others⟩ := List.forall_mem_cons.mp mild
    rw [visit_cons, on_bind, verdicts]
    cases refusal with
    | some refusal =>
      rw [on_deleteIfThere_of_absence client hrules (first refusal rfl)]
      obtain ⟨units, s', run, store, calls⟩ := @ih { s.record (.delete (.ofRef ref)
        (Cluster.deleteOptions client.settings.propagation)) with rules } others
      refine ⟨() :: units, s', ?_, store, ?_⟩
      · dsimp only
        rw [on_bind_pure, run]
        rfl
      · rw [calls, State.record, List.append_assoc]
        rfl
    | none =>
      rw [on_deleteIfThere_of_accepted client hrules]
      obtain ⟨units, s', run, store, calls⟩ :=
        @ih (s.deleted (.ofRef ref) client.settings.propagation rules) others
      refine ⟨() :: units, s', ?_, ?_, ?_⟩
      · dsimp only
        rw [on_bind_pure, run]
        rfl
      · rw [store, State.deleted, Store.remove, List.filter_filter]
        refine List.filter_congr fun entry _ => ?_
        rw [deletes_cons_none, Bool.not_or, Bool.and_comm]
      · rw [calls, State.deleted, State.calls_record, List.append_assoc]
        rfl

/-! ### Creating and then deleting -/

/-- A deletion leaves what was there before the creation, and of what was created it leaves the
objects whose deletion is refused. -/
theorem filter_stamped (free : ∀ ref ∈ refs, s.store.IsFreeAt (.ofRef ref)) (counter : Nat)
    (front : RefSet) (rules : List Rule) :
    (s.store ++ Store.stamped counter front).filter
        (fun entry => !deletes (verdictsOn .delete refs rules) entry.1) =
      s.store ++ (Store.stamped counter front).filter
        (fun entry => !deletes (verdictsOn .delete refs rules) entry.1) := by
  rw [List.filter_append]
  refine congrArg (· ++ _) (List.filter_eq_self.mpr fun entry hmem => ?_)
  rw [Bool.not_eq_true', deletes, List.any_eq_false]
  intro verdict hverdict
  rw [Store.not_same_of_get? (free _ (Cluster.mem_of_verdictsOn hverdict)).absent hmem,
    Bool.and_false]
  exact Bool.false_ne_true

/-- If only deletions of objects that are not there are refused, nothing that was created is
left. -/
theorem filter_stamped_eq_nil (free : ∀ ref ∈ refs, s.store.IsFreeAt (.ofRef ref)) {counter : Nat}
    {front : RefSet} (within : ∀ ref ∈ front, ref ∈ refs) {rules : List Rule}
    (truthful : ∀ verdict ∈ verdictsOn .delete refs rules, verdict.2.isSome →
      (s.store ++ Store.stamped counter front).get? (.ofRef verdict.1) = none) :
    (Store.stamped counter front).filter
      (fun entry => !deletes (verdictsOn .delete refs rules) entry.1) = [] := by
  refine List.filter_eq_nil_iff.mpr fun entry hmem => ?_
  obtain ⟨ref, href, place⟩ := Store.exists_ref_of_mem_stamped hmem
  obtain ⟨verdict, hverdict, rfl⟩ := Cluster.exists_verdictsOn rules (within ref href)
  have findable := (free _ (within _ href)).findable
  have accepted : verdict.2 = none := by
    cases hrefusal : verdict.2 with
    | none => rfl
    | some refusal =>
      have absent := truthful verdict hverdict (by rw [hrefusal]; rfl)
      have apart := Store.not_same_of_get? absent (List.mem_append_right _ hmem)
      rw [place, findable] at apart
      cases apart
  rw [Bool.not_eq_true', Bool.not_eq_false, deletes, List.any_eq_true]
  exact ⟨verdict, hverdict, by rw [accepted, place, findable]; rfl⟩

/-- A creation of objects whose places are free, and the wait that may follow. -/
theorem on_create_of_free (client : Client) {space timeout : Value} {source : Manifest.Source}
    {isWaiting : Bool} (built : builtOn s space source = .ok refs) (nonempty : refs ≠ [])
    (free : ∀ ref ∈ refs, s.store.IsFreeAt (.ofRef ref)) (alone : isWaiting → s.IsQuiet) :
    ∃ result s' reads, (client.create space source isWaiting timeout).on s = (result, s') ∧
      s'.store = s.store ++ Store.stamped s.counter (accepted (verdictsOn .create refs s.rules)) ∧
      s'.calls = s.calls ++ creations (verdictsOn .create refs s.rules) ++ reads ∧
      s'.discovery = s.discovery ∧ (∀ call ∈ reads, call.isReading) ∧
      (∀ ref refusal, refused? (verdictsOn .create refs s.rules) = some (ref, refusal) →
        reads = [] ∧ result = .error (.about ref (.createRefused refusal))) ∧
      (refused? (verdictsOn .create refs s.rules) = none →
        ∃ sent s₁, sent.map Ref.bare = refs.map Ref.bare ∧
          (client.waitIf isWaiting sent timeout).on s₁ = (result, s')) := by
  have creates := creates_visit (Manifest.distinct_of_build built) free
  rw [create, on_bind, on_buildSome_eq_ok.mpr ⟨built, nonempty, rfl⟩]
  dsimp only
  rw [on_bind]
  rcases hvisit : (visit (fun ref => createObject ref .createRefused) refs).on s with ⟨result, s₁⟩
  rw [hvisit] at creates
  obtain ⟨store, calls, ticks, discovery, refused, accepted⟩ := creates
  cases hrefused : refused? (verdictsOn .create refs s.rules) with
  | some verdict =>
    obtain ⟨ref, refusal⟩ := verdict
    obtain rfl := refused ref refusal hrefused
    refine ⟨_, s₁, [], rfl, store, ?_, discovery, List.forall_mem_nil _, ?_, ?_⟩
    · rw [calls, List.append_nil]
    · rintro other refusal' heq
      cases heq
      exact ⟨rfl, rfl⟩
    · exact fun heq => absurd heq (Option.some_ne_none _)
  | none =>
    obtain ⟨sent, rfl, same⟩ := accepted hrefused
    obtain ⟨⟨reads, read, reading⟩, kept⟩ := (client.meets_waitIf isWaiting sent timeout s₁).1
    obtain ⟨space₁, -⟩ :=
      meets_waitIf_of Contract.permitsWaits_settled client isWaiting sent timeout s₁
    have store₁ : ((client.waitIf isWaiting sent timeout).on s₁).2.store = s₁.store := by
      cases isWaiting with
      | false => rfl
      | true =>
        refine (kept fun changes hmem => ?_).2
        exact alone rfl changes (ticks ▸ hmem)
    exact ⟨((client.waitIf isWaiting sent timeout).on s₁).1,
      ((client.waitIf isWaiting sent timeout).on s₁).2, reads, rfl, store₁.trans store,
      read.trans (congrArg (· ++ reads) calls), space₁.trans discovery, reading,
      fun _ _ heq => absurd heq.symm (Option.some_ne_none _), fun _ => ⟨sent, s₁, same, rfl⟩⟩

/-- A deletion of objects of which some have been created. -/
theorem on_delete_of_stamped (client : Client) {space : Value} {source : Manifest.Source}
    {t : State} (built : builtOn t space source = .ok refs) (nonempty : refs ≠ [])
    (free : ∀ ref ∈ refs, s.store.IsFreeAt (.ofRef ref)) {counter : Nat} {front : RefSet}
    (within : ∀ ref ∈ front, ref ∈ refs) (store : t.store = s.store ++ Store.stamped counter front)
    (mild : ∀ verdict ∈ verdictsOn .delete refs t.rules, ∀ refusal,
      verdict.2 = some refusal → refusal.isAbsence) :
    ∃ t', (client.delete space source).on t = (.ok refs, t') ∧
      t'.calls = t.calls ++ client.deletions refs ∧
      t'.store = s.store ++ (Store.stamped counter front).filter
        (fun entry => !deletes (verdictsOn .delete refs t.rules) entry.1) ∧
      ((∀ verdict ∈ verdictsOn .delete refs t.rules, verdict.2.isSome →
        t.store.get? (.ofRef verdict.1) = none) → t'.store = s.store) := by
  obtain ⟨units, t', run, left, calls⟩ := on_visit_deleteIfThere client mild
  rw [store, filter_stamped free] at left
  refine ⟨t', ?_, calls, left, fun truthful => ?_⟩
  · rw [delete, on_bind, on_buildSome_eq_ok.mpr ⟨built, nonempty, rfl⟩]
    dsimp only
    rw [on_bind, run]
    rfl
  · rw [store] at truthful
    rw [left, filter_stamped_eq_nil free within truthful, List.append_nil]

/-- What creating stores, and that deleting undoes it. If there are no objects yet at the places of
those of a manifest, then creating them stores the objects before the first one that the rules
refuse, in order and with new versions, and calls for nothing after the refusal; if none is
refused it stores all of them, and a wait may follow.

Then let the same manifest be deleted from a cluster with this store, whatever its rules are. If
no deletion is refused but as one of an absent object, it returns the references and has asked
for every deletion once. The objects from before the creation are still stored, and of the
created ones only those whose deletion was refused: if none was refused that is stored, just
the objects from before are. -/
theorem delete_undoes_create (client : Client) (space : Value) (source : Manifest.Source)
    (isWaiting : Bool) (timeout : Value) (s : State) (refs : RefSet)
    (built : builtOn s space source = .ok refs) (nonempty : refs ≠ [])
    (free : ∀ ref ∈ refs, s.store.IsFreeAt (.ofRef ref)) (alone : isWaiting → s.IsQuiet) :
    ∃ result s' reads, (client.create space source isWaiting timeout).on s = (result, s') ∧
      s'.store = s.store ++ Store.stamped s.counter (accepted (verdictsOn .create refs s.rules)) ∧
      s'.calls = s.calls ++ creations (verdictsOn .create refs s.rules) ++ reads ∧
      (∀ call ∈ reads, call.isReading) ∧
      (∀ ref refusal, refused? (verdictsOn .create refs s.rules) = some (ref, refusal) →
        reads = [] ∧ result = .error (.about ref (.createRefused refusal))) ∧
      (refused? (verdictsOn .create refs s.rules) = none →
        accepted (verdictsOn .create refs s.rules) = refs ∧
        ∃ sent s₁, sent.map Ref.bare = refs.map Ref.bare ∧
          (client.waitIf isWaiting sent timeout).on s₁ = (result, s')) ∧
      ∀ t, t.store = s'.store → t.discovery = s'.discovery →
        (∀ verdict ∈ verdictsOn .delete refs t.rules, ∀ refusal,
          verdict.2 = some refusal → refusal.isAbsence) →
        ∃ t', (client.delete space source).on t = (.ok refs, t') ∧
          t'.calls = t.calls ++ client.deletions refs ∧
          t'.store = s.store ++
            (Store.stamped s.counter (accepted (verdictsOn .create refs s.rules))).filter
              (fun entry => !deletes (verdictsOn .delete refs t.rules) entry.1) ∧
          ((∀ verdict ∈ verdictsOn .delete refs t.rules, verdict.2.isSome →
            t.store.get? (.ofRef verdict.1) = none) → t'.store = s.store) := by
  obtain ⟨result, s', reads, run, store, calls, discovery, reading, refused, waits⟩ :=
    on_create_of_free client built nonempty free alone
  refine ⟨result, s', reads, run, store, calls, reading, refused, fun none => ?_, ?_⟩
  · exact ⟨accepted_eq_of_refused? none, waits none⟩
  · intro t same space' mild
    have later : builtOn t space source = .ok refs := by
      rw [builtOn, space', discovery]
      exact built
    exact on_delete_of_stamped client later nonempty free (fun _ => mem_of_mem_accepted)
      (same.trans store) mild

/-- The second config map cannot be created. -/
def creationOfSecond : Cluster.Rule where
  verb := .create
  name := some (.text "second")
  refusal := ⟨.int 403, .text "Forbidden"⟩

/-- Of two config maps only the first is created, and it is deleted again. -/
theorem delete_undoes_creation_of_first : ∃ s' t',
    (({} : Client).create .null (.text twoConfigs) false .null).on { rules := [creationOfSecond] } =
      (.error (.about (configRef "second" []) (.createRefused creationOfSecond.refusal)), s') ∧
    s'.store.map (·.1) = [.ofRef (configRef "first" [])] ∧
    (({} : Client).delete .null (.text twoConfigs)).on s' =
      (.ok [configRef "first" [], configRef "second" []], t') ∧ t'.store = [] := by
  have built : builtOn { rules := [creationOfSecond] } .null (.text twoConfigs) = _ :=
    builtOn_twoConfigs rfl
  have free : ∀ ref ∈ [configRef "first" [], configRef "second" []],
      Store.IsFreeAt [] (.ofRef ref) :=
    List.forall_mem_cons.mpr ⟨⟨Key.same_texts _ _ _, rfl⟩,
      List.forall_mem_cons.mpr ⟨⟨Key.same_texts _ _ _, rfl⟩, List.forall_mem_nil _⟩⟩
  obtain ⟨result, s', reads, run, store, calls, -, refused, -, undone⟩ :=
    delete_undoes_create {} .null (.text twoConfigs) false .null { rules := [creationOfSecond] } _
      built (List.cons_ne_nil _ _) free fun asked => absurd asked Bool.false_ne_true
  obtain ⟨-, rfl⟩ := refused (configRef "second" []) creationOfSecond.refusal rfl
  have counted : s'.rules = [{ creationOfSecond with matched := 1 }] := by
    have rules := congrArg (fun run => run.2.rules) run
    rw [create, on_bind, on_buildSome_eq_ok.mpr ⟨built, List.cons_ne_nil _ _, rfl⟩] at rules
    exact rules.symm
  have silent : ∀ verdict ∈ verdictsOn .delete [configRef "first" [], configRef "second" []]
      s'.rules, verdict.2 = none := by
    rw [counted]
    exact List.forall_mem_cons.mpr ⟨rfl, List.forall_mem_cons.mpr ⟨rfl, List.forall_mem_nil _⟩⟩
  obtain ⟨t', deleted, -, -, emptied⟩ := undone s' rfl rfl fun verdict hmem refusal heq => by
    rw [silent verdict hmem] at heq
    cases heq
  refine ⟨s', t', run, ?_, deleted, emptied fun verdict hmem refused => ?_⟩
  · rw [store]
    rfl
  · rw [silent verdict hmem] at refused
    cases refused

end Client

end Reconciler

import Reconciler.Proofs.Readiness.Reading
import Reconciler.Proofs.Value.Form

/-!
# What a check finds

A check for readiness observes the objects of a set one after another and lists those that are
not ready. The list does not depend on what was known of the objects before, so a check after
another one may start from the references as they were read. What is listed for the objects
of two records is what is listed for each of them, in another order.
-/

namespace Reconciler

open Cluster (State Key)

/-- A reference without what is known of its object. -/
def Ref.bare (ref : Ref) : Ref := ref.refresh .null

namespace Session

/-- To change what each visit finds is to change what all of them find. -/
theorem visit_map (f : α → β) (act : Ref → Session α) (refs : RefSet) :
    visit (fun ref => f <$> act ref) refs = List.map f <$> visit act refs := by
  induction refs with
  | nil => rfl
  | cons ref rest ih => simp [visit_cons, ih]

theorem visit_congr_map {act : Ref → Session α} {view : Ref → Ref}
    (h : ∀ ref, act (view ref) = act ref) (refs : RefSet) :
    visit act (refs.map view) = visit act refs := by
  induction refs with
  | nil => rfl
  | cons ref rest ih => rw [List.map_cons, visit_cons, visit_cons, h, ih]

/-- What visits find goes with the references that are visited, one by one. -/
theorem map_eq_of_visit {act : Ref → Session α} {view : α → β} {own : Ref → β}
    (h : ∀ ref s a s', (act ref).on s = (.ok a, s') → view a = own ref) {refs : RefSet}
    {s s' : State} {found : List α} (hvisit : (visit act refs).on s = (.ok found, s')) :
    found.map view = refs.map own := by
  induction refs generalizing s found with
  | nil =>
    cases hvisit
    rfl
  | cons ref rest ih =>
    obtain ⟨a, s₁, hact, hvisit⟩ := on_bind_eq_ok.mp hvisit
    obtain ⟨more, s₂, hrest, hvisit⟩ := on_bind_eq_ok.mp hvisit
    cases hvisit
    rw [List.map_cons, List.map_cons, h ref s a s₁ hact, ih hrest]

end Session

namespace Readiness

open Session

/-- The descriptions of the objects of a set that are not ready. -/
def unready (refs : RefSet) : Session (List String) := do
  let (_, names) ← pending refs
  return names

/-- All objects of a set are ready if none is listed as not ready. -/
theorem isReady_eq (refs : RefSet) : isReady refs = List.isEmpty <$> unready refs := by
  simp [isReady, unready]

theorem on_isReady (refs : RefSet) (s : State) :
    ((isReady refs).on s).1 = ((unready refs).on s).1.map List.isEmpty := by
  rw [isReady_eq, map_eq_pure_bind, on_bind]
  rcases (unready refs).on s with ⟨failure | names, s'⟩ <;> rfl

/-! ### What was known before -/

/-- A record without what is known of the objects that are named in it. -/
def Record.bare (record : Record) : Record :=
  { record with
    missing := record.missing.map Ref.bare
    ignored := record.ignored.map Ref.bare }

@[simp] theorem bare_append (x y : Record) : (x ++ y).bare = x.bare ++ y.bare := by
  simp [append_eq, Record.append, Record.bare]

@[simp] theorem pending_bare (record : Record) : record.bare.pending = record.pending := by
  have names : record.bare.missing.map describeMissing = record.missing.map describeMissing := by
    rw [Record.bare, List.map_map]
    rfl
  unfold Record.pending
  rw [names]
  rfl

/-- What a check keeps of an observation. -/
def essence (seen : Ref × Record) : Ref × Record := (seen.1.bare, seen.2.bare)

/-- What is observed does not depend on the body that was known before. -/
theorem essence_observe_refresh (ref : Ref) (body : Value) :
    essence <$> observe (ref.refresh body) = essence <$> observe ref := by
  simp only [observe, map_bind]
  congr 1
  funext reply
  cases reply with
  | ok body => rfl
  | error refusal =>
    dsimp only
    split <;> rfl

/-- All that a set of observations says. -/
def summary (observed : List (Ref × Record)) : Record :=
  observed.foldl (fun record entry => record ++ entry.2) {}

theorem foldl_append (record : Record) (observed : List (Ref × Record)) :
    observed.foldl (fun record entry => record ++ entry.2) record =
      record ++ summary observed := by
  induction observed generalizing record with
  | nil => simp [summary, append_eq, Record.append]
  | cons entry rest ih =>
    rw [summary, List.foldl_cons, List.foldl_cons, ih, ih, empty_append, append_assoc]

theorem summary_cons (entry : Ref × Record) (rest : List (Ref × Record)) :
    summary (entry :: rest) = entry.2 ++ summary rest := by
  rw [summary, List.foldl_cons, foldl_append, empty_append]

theorem summary_append (front back : List (Ref × Record)) :
    summary (front ++ back) = summary front ++ summary back := by
  rw [summary, List.foldl_append, foldl_append]
  rfl

theorem bare_summary (observed : List (Ref × Record)) :
    (summary (observed.map essence)).bare = (summary observed).bare := by
  induction observed with
  | nil => rfl
  | cons entry rest ih =>
    have own : (essence entry).2.bare = entry.2.bare := by
      simp [essence, Record.bare, Ref.bare, Function.comp_def, Ref.refresh]
    rw [List.map_cons, summary_cons, summary_cons, bare_append, bare_append, ih, own]

/-- A check observes the objects and lists what is pending among them. -/
theorem pending_eq (refs : RefSet) : pending refs = (do
    let observed ← visit observe refs
    let names ← ofFault (summary observed).pending
    return (observed.map (·.1), names)) := by
  simp [pending, collect, summary]

theorem unready_eq (refs : RefSet) : unready refs = (do
    let observed ← visit observe refs
    ofFault (summary observed).pending) := by
  simp [unready, pending_eq]

/-- What a check lists does not depend on what was known before. -/
theorem unready_bare (refs : RefSet) : unready (refs.map Ref.bare) = unready refs := by
  have essential : ∀ refs : RefSet, unready refs = (do
      let observed ← visit (fun ref => essence <$> observe ref) refs
      ofFault (summary observed).pending) := by
    intro refs
    have same : ∀ observed : List (Ref × Record),
        (summary (observed.map essence)).pending = (summary observed).pending := by
      intro observed
      rw [← pending_bare, bare_summary, pending_bare]
    rw [unready_eq, visit_map]
    simp [same]
  rw [essential, essential refs]
  rw [visit_congr_map fun ref => essence_observe_refresh ref .null]

theorem unready_congr {refs found : RefSet} (h : found.map Ref.bare = refs.map Ref.bare) :
    unready found = unready refs := by
  rw [← unready_bare found, h, unready_bare]

/-- To observe an object is to get it and, if it is there, to get what decides its readiness. -/
theorem on_observe (ref : Ref) (s : State) : (observe ref).on s =
    match Cluster.get (.ofRef ref) s with
    | (.error refusal, s) =>
      if refusal.isAbsence then (.ok (ref, { missing := [ref] }), s)
      else (.error (.about ref (.getRefused refusal)), s)
    | (.ok body, s) =>
      match (evidence (ref.refresh body)).on s with
      | (.error failure, s) => (.error failure, s)
      | (.ok (.ok record), s) => (.ok (ref.refresh body, record), s)
      | (.ok (.error refusal), s) =>
        if refusal.isAbsence then
          (.ok (ref.refresh body, { missing := [ref.refresh body] }), s)
        else (.error (.about ref (.readinessRefused refusal.reason)), s) := by
  rw [observe, on_bind, on_lift]
  rcases Cluster.get (.ofRef ref) s with ⟨refusal | body, s₁⟩
  · dsimp only
    split <;> rfl
  · dsimp only
    rw [on_bind]
    rcases (evidence (ref.refresh body)).on s₁ with ⟨failure | ⟨refusal | record⟩, s₂⟩
    · rfl
    · dsimp only
      split <;> rfl
    · rfl

theorem bare_of_observe (ref : Ref) (s : State) (seen : Ref × Record) (s' : State)
    (h : (observe ref).on s = (.ok seen, s')) : seen.1.bare = ref.bare := by
  rw [on_observe] at h
  split at h
  · split at h <;> cases h
    rfl
  · split at h
    · cases h
    · cases h
      rfl
    · split at h <;> cases h
      rfl

/-- A check goes on to name the same objects. -/
theorem on_pending (refs : RefSet) (s : State) : ∃ found : RefSet,
    found.map Ref.bare = refs.map Ref.bare ∧
      (pending refs).on s = (((unready refs).on s).1.map (found, ·), ((unready refs).on s).2) := by
  rw [pending_eq, unready_eq, on_bind, on_bind]
  rcases hvisit : (visit observe refs).on s with ⟨failure | observed, s₁⟩
  · exact ⟨refs, rfl, rfl⟩
  · refine ⟨observed.map (·.1), ?_, ?_⟩
    · rw [List.map_map]
      exact map_eq_of_visit bare_of_observe hvisit
    · dsimp only
      rw [on_bind, ofFault, on_ofExcept]
      rcases (summary observed).pending with fault | names <;> rfl

/-! ### What a record lists -/

section

variable {family : String} {isReady : α → Except Fault Bool} {object : α → Value}

/-- What one item adds to the list of what is not ready. -/
def lineOf (family : String) (isReady : α → Except Fault Bool) (object : α → Value) (item : α) :
    Except Fault (List String) := do
  if ← isReady item then return []
  let text ← describe (object item)
  return [family ++ " " ++ text]

theorem lineOf_eq_nil_iff {item : α} :
    lineOf family isReady object item = .ok [] ↔ isReady item = .ok true := by
  rw [lineOf]
  rcases isReady item with fault | ready
  · exact ⟨nofun, nofun⟩
  · cases ready with
    | true => exact ⟨fun _ => rfl, fun _ => rfl⟩
    | false =>
      rcases describe (object item) with fault | text <;>
        simp [bind, Except.bind, pure, Except.pure]

theorem gives_lineOf {item : α} (decided : Gives (isReady item) fun _ => True)
    (described : Gives (describe (object item)) fun _ => True) :
    Gives (lineOf family isReady object item) fun _ => True := by
  refine decided.bind fun ready _ => ?_
  split
  · exact gives_ok trivial
  · exact described.bind fun text _ => gives_ok trivial

theorem pendingOf_cons (item : α) (items : List α) :
    pendingOf family isReady object (item :: items) = (do
      let names ← lineOf family isReady object item
      let more ← pendingOf family isReady object items
      return names ++ more) := by
  rw [pendingOf, lineOf, bind_assoc]
  congr 1
  funext ready
  cases ready <;> simp

theorem pendingOf_append (front back : List α) :
    pendingOf family isReady object (front ++ back) = (do
      let names ← pendingOf family isReady object front
      let more ← pendingOf family isReady object back
      return names ++ more) := by
  induction front with
  | nil =>
    rw [List.nil_append, pendingOf_nil]
    rcases pendingOf family isReady object back with fault | more <;> rfl
  | cons item rest ih =>
    rw [List.cons_append, pendingOf_cons, pendingOf_cons, ih]
    simp only [bind_assoc, pure_bind, List.append_assoc]

/-- Nothing is listed if all items are ready. -/
theorem pendingOf_eq_nil_iff {items : List α} : pendingOf family isReady object items = .ok [] ↔
    ∀ item ∈ items, isReady item = .ok true := by
  induction items with
  | nil => simp
  | cons item rest ih =>
    rw [List.forall_mem_cons, ← ih, pendingOf_cons]
    constructor
    · intro h
      obtain ⟨names, hnames, h⟩ := bind_eq_ok.mp h
      obtain ⟨more, hmore, h⟩ := bind_eq_ok.mp h
      obtain ⟨rfl, rfl⟩ := List.append_eq_nil_iff.mp (Except.ok.inj h)
      exact ⟨lineOf_eq_nil_iff.mp hnames, hmore⟩
    · rintro ⟨hready, hmore⟩
      rw [lineOf_eq_nil_iff.mpr hready, hmore]
      rfl

theorem gives_pendingOf {items : List α} (h : ∀ item ∈ items,
      Gives (isReady item) (fun _ => True) ∧ Gives (describe (object item)) fun _ => True) :
    Gives (pendingOf family isReady object items) fun _ => True := by
  induction items with
  | nil => exact gives_ok trivial
  | cons item rest ih =>
    obtain ⟨⟨decided, described⟩, hrest⟩ := List.forall_mem_cons.mp h
    rw [pendingOf_cons]
    refine (gives_lineOf decided described).bind fun names _ => ?_
    exact (ih hrest).bind fun more _ => gives_ok trivial

end

/-- A record lists what is missing and, family by family, what is not ready. -/
theorem pending_eq_ok {record : Record} {names : List String} : record.pending = .ok names ↔
    ∃ pods services volumes deployments,
      pendingOf "Pod" podReady id record.pods = .ok pods ∧
      pendingOf "Service" serviceReady id record.services = .ok services ∧
      pendingOf "PersistentVolumeClaim" claimReady id record.volumes = .ok volumes ∧
      pendingOf "Deployment" (fun pair => deploymentReady pair.deployment pair.replicaSet)
        DeploymentPair.deployment record.deployments = .ok deployments ∧
      names = record.missing.map describeMissing ++ pods ++ services ++ volumes ++ deployments := by
  constructor
  · intro h
    obtain ⟨pods, hpods, h⟩ := bind_eq_ok.mp h
    obtain ⟨services, hservices, h⟩ := bind_eq_ok.mp h
    obtain ⟨volumes, hvolumes, h⟩ := bind_eq_ok.mp h
    obtain ⟨deployments, hdeployments, h⟩ := bind_eq_ok.mp h
    exact ⟨pods, services, volumes, deployments, hpods, hservices, hvolumes, hdeployments,
      (Except.ok.inj h).symm⟩
  · rintro ⟨pods, services, volumes, deployments, hpods, hservices, hvolumes, hdeployments, rfl⟩
    rw [Record.pending, hpods, hservices, hvolumes, hdeployments]
    rfl

theorem pending_eq_nil_iff {record : Record} : record.pending = .ok [] ↔ record.missing = [] ∧
    (∀ pod ∈ record.pods, podReady pod = .ok true) ∧
    (∀ service ∈ record.services, serviceReady service = .ok true) ∧
    (∀ claim ∈ record.volumes, claimReady claim = .ok true) ∧
    ∀ pair ∈ record.deployments, deploymentReady pair.deployment pair.replicaSet = .ok true := by
  rw [pending_eq_ok, ← pendingOf_eq_nil_iff, ← pendingOf_eq_nil_iff, ← pendingOf_eq_nil_iff,
    ← pendingOf_eq_nil_iff]
  constructor
  · rintro ⟨pods, services, volumes, deployments, hpods, hservices, hvolumes, hdeployments, h⟩
    simp only [List.nil_eq, List.append_eq_nil_iff, List.map_eq_nil_iff] at h
    obtain ⟨⟨⟨⟨missing, rfl⟩, rfl⟩, rfl⟩, rfl⟩ := h
    exact ⟨missing, hpods, hservices, hvolumes, hdeployments⟩
  · rintro ⟨missing, hpods, hservices, hvolumes, hdeployments⟩
    exact ⟨[], [], [], [], hpods, hservices, hvolumes, hdeployments, by rw [missing]; rfl⟩

theorem pending_append_eq_nil_iff {x y : Record} :
    (x ++ y).pending = .ok [] ↔ x.pending = .ok [] ∧ y.pending = .ok [] := by
  simp only [pending_eq_nil_iff, append_eq, Record.append, List.append_eq_nil_iff,
    List.forall_mem_append]
  constructor
  · rintro ⟨⟨lost, lost'⟩, ⟨pods, pods'⟩, ⟨services, services'⟩, ⟨volumes, volumes'⟩, pairs, pairs'⟩
    exact ⟨⟨lost, pods, services, volumes, pairs⟩, lost', pods', services', volumes', pairs'⟩
  · rintro ⟨⟨lost, pods, services, volumes, pairs⟩, lost', pods', services', volumes', pairs'⟩
    exact ⟨⟨lost, lost'⟩, ⟨pods, pods'⟩, ⟨services, services'⟩, ⟨volumes, volumes'⟩, pairs, pairs'⟩

/-- Two records together list what each of them lists, in another order. -/
theorem exists_pending_append {x y : Record} {first second : List String}
    (hx : x.pending = .ok first) (hy : y.pending = .ok second) :
    ∃ names, (x ++ y).pending = .ok names ∧ names.Perm (first ++ second) := by
  obtain ⟨pods, services, volumes, deployments, hpods, hservices, hvolumes, hdeployments, rfl⟩ :=
    pending_eq_ok.mp hx
  obtain ⟨pods', services', volumes', deployments', hpods', hservices', hvolumes', hdeployments',
    rfl⟩ := pending_eq_ok.mp hy
  refine ⟨_, pending_eq_ok.mpr ⟨pods ++ pods', services ++ services', volumes ++ volumes',
    deployments ++ deployments', ?_, ?_, ?_, ?_, rfl⟩, ?_⟩
  · rw [append_eq, Record.append, pendingOf_append, hpods, hpods']
    rfl
  · rw [append_eq, Record.append, pendingOf_append, hservices, hservices']
    rfl
  · rw [append_eq, Record.append, pendingOf_append, hvolumes, hvolumes']
    rfl
  · rw [append_eq, Record.append, pendingOf_append, hdeployments, hdeployments']
    rfl
  · refine List.perm_iff_count.mpr fun name => ?_
    simp only [append_eq, Record.append, List.map_append, List.count_append]
    omega

/-! ### Sets with nothing that is not ready -/

/-- Nothing is listed for a set if nothing is listed for its first object and then nothing for the
others. -/
theorem unready_cons_eq_nil_iff {ref : Ref} {rest : RefSet} {s : State} :
    ((unready (ref :: rest)).on s).1 = .ok [] ↔ ∃ seen s₁, (observe ref).on s = (.ok seen, s₁) ∧
      seen.2.pending = .ok [] ∧ ((unready rest).on s₁).1 = .ok [] := by
  have listed (refs : RefSet) (s : State) : ((unready refs).on s).1 = .ok [] ↔
      ∃ observed s₁, (visit observe refs).on s = (.ok observed, s₁) ∧
        (summary observed).pending = .ok [] := by
    rw [unready_eq, on_bind]
    rcases (visit observe refs).on s with ⟨failure | observed, s₁⟩
    · exact ⟨nofun, nofun⟩
    · change liftFault (summary observed).pending = .ok [] ↔ _
      rw [liftFault_eq_ok]
      exact ⟨fun ready => ⟨observed, s₁, rfl, ready⟩, fun ⟨_, _, heq, ready⟩ => by
        cases heq; exact ready⟩
  rw [listed]
  constructor
  · rintro ⟨observed, s', hvisit, ready⟩
    obtain ⟨seen, s₁, hobserve, hvisit⟩ := on_bind_eq_ok.mp hvisit
    obtain ⟨more, s₂, hrest, hvisit⟩ := on_bind_eq_ok.mp hvisit
    cases hvisit
    rw [summary_cons, pending_append_eq_nil_iff] at ready
    exact ⟨seen, s₁, hobserve, ready.1, (listed rest s₁).mpr ⟨more, _, hrest, ready.2⟩⟩
  · rintro ⟨seen, s₁, hobserve, ready, others⟩
    obtain ⟨more, s₂, hrest, readyRest⟩ := (listed rest s₁).mp others
    refine ⟨seen :: more, s₂, ?_, ?_⟩
    · exact on_bind_eq_ok.mpr ⟨seen, s₁, hobserve, on_bind_eq_ok.mpr ⟨more, s₂, hrest, rfl⟩⟩
    · rw [summary_cons, pending_append_eq_nil_iff]
      exact ⟨ready, readyRest⟩

/-- An object shows that it is ready if it is there, and all that decides its readiness is there
and shows that it is ready. -/
theorem observe_pending_eq_nil_iff {ref : Ref} {s s' : State} :
    (∃ seen, (observe ref).on s = (.ok seen, s') ∧ seen.2.pending = .ok []) ↔ ∃ body s₁ record,
      Cluster.get (.ofRef ref) s = (.ok body, s₁) ∧
      (evidence (ref.refresh body)).on s₁ = (.ok (.ok record), s') ∧ record.pending = .ok [] := by
  have lost (ref : Ref) : ({ missing := [ref] } : Record).pending ≠ .ok [] := by
    rw [ne_eq, pending_eq_nil_iff]
    simp
  rw [on_observe]
  constructor
  · rintro ⟨seen, heq, ready⟩
    rcases hget : Cluster.get (.ofRef ref) s with ⟨refusal | body, s₁⟩
    · rw [hget] at heq
      dsimp only at heq
      split at heq <;> cases heq
      exact (lost ref ready).elim
    · rw [hget] at heq
      dsimp only at heq
      rcases hevidence : (evidence (ref.refresh body)).on s₁ with
        ⟨failure | ⟨refusal | record⟩, s₂⟩ <;> rw [hevidence] at heq
      · cases heq
      · dsimp only at heq
        split at heq <;> cases heq
        exact (lost _ ready).elim
      · cases heq
        exact ⟨body, s₁, record, rfl, hevidence, ready⟩
  · rintro ⟨body, s₁, record, hget, hevidence, ready⟩
    rw [hget]
    dsimp only
    rw [hevidence]
    exact ⟨_, rfl, ready⟩

/-! ### Refused calls -/

/-- A call by which an object is observed is refused, and not because nothing is there. -/
inductive IsRefused (ref : Ref) (s : State) : Prop
  | get {refusal : ApiRefusal} {s' : State}
    (answer : Cluster.get (.ofRef ref) s = (.error refusal, s'))
    (hard : refusal.isAbsence = false)
  | evidence {body : Value} {s₁ s' : State} {refusal : ApiRefusal}
    (found : Cluster.get (.ofRef ref) s = (.ok body, s₁))
    (answer : (evidence (ref.refresh body)).on s₁ = (.ok (.error refusal), s'))
    (hard : refusal.isAbsence = false)

/-- A refused call ends the observation with a problem of the cluster's interface. -/
theorem IsRefused.on_observe {ref : Ref} {s : State} (h : IsRefused ref s) :
    ∃ cause s', cause.category = .clusterApi ∧
      (observe ref).on s = (.error (.about ref cause), s') := by
  cases h with
  | @get refusal s' answer hard =>
    refine ⟨.getRefused refusal, s', rfl, ?_⟩
    rw [Readiness.on_observe, answer]
    dsimp only
    rw [if_neg (by simp [hard])]
  | @evidence body s₁ s' refusal found answer hard =>
    refine ⟨.readinessRefused refusal.reason, s', rfl, ?_⟩
    rw [Readiness.on_observe, found]
    dsimp only
    rw [answer]
    dsimp only
    rw [if_neg (by simp [hard])]

/-- When the objects of a set are observed, one of them is reached and a call for it is
refused. -/
def IsRefusedAt (refs : RefSet) (s : State) (ref : Ref) : Prop :=
  ∃ front back seen s', refs = front ++ ref :: back ∧
    (visit observe front).on s = (.ok seen, s') ∧ IsRefused ref s'

theorem IsRefusedAt.on_unready {refs : RefSet} {s : State} {ref : Ref}
    (h : IsRefusedAt refs s ref) : ∃ cause, cause.category = .clusterApi ∧
      ((unready refs).on s).1 = .error (.about ref cause) := by
  obtain ⟨front, back, seen, s', rfl, hfront, refused⟩ := h
  obtain ⟨cause, s₁, category, ends⟩ := refused.on_observe
  refine ⟨cause, category, ?_⟩
  have stopped : (visit observe (front ++ ref :: back)).on s = (.error (.about ref cause), s₁) := by
    rw [visit_append, on_bind, hfront]
    dsimp only
    rw [visit_cons, on_bind, on_bind, ends]
  rw [unready_eq, on_bind, stopped]

end Readiness

end Reconciler

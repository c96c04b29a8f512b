import Reconciler.Proofs.Readiness.Checking
import Reconciler.Proofs.Readiness.Parallel

/-!
# Readiness of a set

On a cluster that does not change, an object is ready or not, whatever else is checked with it.
So a check of two sets finds not ready what checks of each of them do, in another order, and a
set is ready if all its objects are. What a single object needs follows from its family.
-/

namespace Reconciler

open Cluster (State)

/-- A cluster with well-formed objects that always answers alike, and refuses a call of reading
only as if there were no such object. -/
structure Cluster.State.IsReadable (s : State) : Prop where
  steady : s.IsSteady
  wellFormed : s.IsWellFormed
  absent : ∀ verb kind name refusal, verb.isReading → s.verdict verb kind name = some refusal →
    refusal.isAbsence

theorem Cluster.State.isReadable_of_rules {s : State} (wellFormed : s.IsWellFormed)
    (rules : ∀ rule ∈ s.rules, rule.nth = none ∧ rule.refusal.isAbsence) : s.IsReadable where
  steady := isSteady_of_uncounted fun rule hmem => (rules rule hmem).1
  wellFormed := wellFormed
  absent := by
    intro verb kind name refusal _ h
    obtain ⟨rule, hmem, rfl⟩ := exists_rule_of_tryRules h
    exact (rules rule hmem).2

namespace Readiness

open Session

variable {s : State} {ref : Ref} {info : Schema.KindInfo}

/-! ### What an object needs -/

/-- All pods are ready that are listed for the selector of an object. -/
def HasReadyPods (info : Schema.KindInfo) (ref : Ref) (body : Value) (s : State) : Prop :=
  ∃ labels text pods, info.podLabels body = .ok labels ∧
    Schema.selectorText labels = .ok text ∧
    (Cluster.listPods ref.space text s).1 = .ok pods ∧ ∀ pod ∈ pods, podReady pod = .ok true

/-- A deployment as its typed interface has it is ready with the replica set of its template. -/
def HasReadyRollout (ref : Ref) (s : State) : Prop :=
  ∃ deployment space text replicaSets found,
    (Cluster.readDeployment ref.space ref.name s).1 = .ok deployment ∧
    IsReplicaSetQuery deployment space text ∧
    (Cluster.listReplicaSets space text s).1 = .ok replicaSets ∧
    ownReplicaSet deployment replicaSets = .ok found ∧
    deploymentReady deployment (.ofOption found) = .ok true

/-- An object that exists is ready by the rule of its family. -/
def IsReadyBy (info : Schema.KindInfo) (ref : Ref) (body : Value) (s : State) : Prop :=
  match info.readiness with
  | .pod => podReady body = .ok true
  | .selectedPods => HasReadyPods info ref body s
  | .service => serviceReady body = .ok true
  | .volumeClaim => claimReady body = .ok true
  | .deployment => HasReadyRollout ref s
  | .job | .unrecognized => True

/-- An object exists and is ready. -/
def IsSatisfied (ref : Ref) (s : State) : Prop :=
  ∃ info body, ref.info = .ok info ∧ (Cluster.get (.ofRef ref) s).1 = .ok body ∧
    IsReadyBy info ref body s

/-! ### Reading a cluster that does not change -/

/-- Two clusters that one cluster became while it was read. -/
def ReadTwice (origin s t : State) : Prop := origin.IsReadFrom s ∧ origin.IsReadFrom t

variable {origin : State}

theorem store_eq_of_readTwice (s t : State) (h : ReadTwice origin s t) : s.store = t.store :=
  h.1.store.trans h.2.store.symm

theorem parallel_observe_of_steady (steady : origin.IsSteady) (ref : Ref) :
    Parallel (ReadTwice origin) (observe ref) :=
  parallel_observe_of_same (Cluster.lastsWhileRead_of_isSteady steady) store_eq_of_readTwice ref

theorem parallel_visit_of_steady (steady : origin.IsSteady) (refs : RefSet) :
    Parallel (ReadTwice origin) (visit observe refs) :=
  parallel_visit fun ref _ => parallel_observe_of_steady steady ref

/-- A call of reading is answered as at first. -/
theorem perform_of_isReadFrom (steady : origin.IsSteady) (read : origin.IsReadFrom s)
    {verb : Cluster.Verb} (reading : verb.isReading) (kind name : Value) (call : Cluster.Call)
    {answer : State → Cluster.Reply α}
    (h : ∀ s t : State, s.store = t.store → answer s = answer t) :
    (Cluster.perform verb kind name call (Cluster.unchanged answer) s).1 =
        (Cluster.perform verb kind name call (Cluster.unchanged answer) origin).1 ∧
      origin.IsReadFrom (Cluster.perform verb kind name call (Cluster.unchanged answer) s).2 := by
  obtain ⟨same, kept⟩ := (Cluster.lastsWhileRead_of_isSteady steady).perform reading kind name call
    (fun s t (related : ReadTwice origin s t) => h s t (store_eq_of_readTwice s t related))
    ⟨read, .refl origin⟩
  exact ⟨same, kept.1⟩

theorem listPods_of_isReadFrom (steady : origin.IsSteady) (read : origin.IsReadFrom s)
    (space : Value) (selector : String) :
    (Cluster.listPods space selector s).1 = (Cluster.listPods space selector origin).1 :=
  (perform_of_isReadFrom steady read rfl _ _ _ fun s t h => by rw [h]).1

theorem listReplicaSets_of_isReadFrom (steady : origin.IsSteady) (read : origin.IsReadFrom s)
    (space : Value) (selector : String) : (Cluster.listReplicaSets space selector s).1 =
      (Cluster.listReplicaSets space selector origin).1 :=
  (perform_of_isReadFrom steady read rfl _ _ _ fun s t h => by rw [h]).1

theorem readDeployment_of_isReadFrom (steady : origin.IsSteady) (read : origin.IsReadFrom s)
    (space name : Value) :
    (Cluster.readDeployment space name s).1 = (Cluster.readDeployment space name origin).1 ∧
      origin.IsReadFrom (Cluster.readDeployment space name s).2 :=
  perform_of_isReadFrom steady read rfl _ _ _ fun s t h => by rw [State.find, State.find, h]

theorem isReadFrom_get (steady : origin.IsSteady) (read : origin.IsReadFrom s)
    (key : Cluster.Key) : origin.IsReadFrom (Cluster.get key s).2 :=
  (perform_of_isReadFrom steady read rfl _ _ _ fun s t h => by
    rw [State.find, State.find, h]).2

/-! ### The evidence shows what an object needs -/

theorem pending_own_iff {record : Record} (own : ownRecord ref info.readiness = some record)
    (origin : State) : record.pending = .ok [] ↔ IsReadyBy info ref ref.body origin := by
  unfold IsReadyBy
  rw [pending_eq_nil_iff]
  cases family : info.readiness <;> rw [family] at own <;> cases own <;> simp

theorem pending_pods_iff {pods : List Value} : ({ pods } : Record).pending = .ok [] ↔
    ∀ pod ∈ pods, podReady pod = .ok true := by
  simp [pending_eq_nil_iff]

theorem pending_deployment_iff {pair : DeploymentPair} :
    ({ deployments := [pair] } : Record).pending = .ok [] ↔
      deploymentReady pair.deployment pair.replicaSet = .ok true := by
  simp [pending_eq_nil_iff]

theorem hasReadyPods_iff {labels : Members} {text : String} {body : Value}
    (hlabels : info.podLabels body = .ok labels) (htext : Schema.selectorText labels = .ok text) :
    HasReadyPods info ref body s ↔ ∃ pods, (Cluster.listPods ref.space text s).1 = .ok pods ∧
      ∀ pod ∈ pods, podReady pod = .ok true := by
  constructor
  · rintro ⟨labels', text', pods, hlabels', htext', list, ready⟩
    obtain rfl := Except.ok.inj (hlabels.symm.trans hlabels')
    obtain rfl := Except.ok.inj (htext.symm.trans htext')
    exact ⟨pods, list, ready⟩
  · rintro ⟨pods, list, ready⟩
    exact ⟨labels, text, pods, hlabels, htext, list, ready⟩

theorem hasReadyRollout_iff {deployment space : Value} {text : String}
    (read : (Cluster.readDeployment ref.space ref.name s).1 = .ok deployment)
    (query : IsReplicaSetQuery deployment space text) :
    HasReadyRollout ref s ↔ ∃ replicaSets found,
      (Cluster.listReplicaSets space text s).1 = .ok replicaSets ∧
      ownReplicaSet deployment replicaSets = .ok found ∧
      deploymentReady deployment (.ofOption found) = .ok true := by
  obtain ⟨hspace, labels, hlabels, htext⟩ := query
  constructor
  · rintro ⟨deployment', space', text', replicaSets, found, read', query', list, own, ready⟩
    obtain ⟨hspace', labels', hlabels', htext'⟩ := query'
    obtain rfl := Except.ok.inj (read.symm.trans read')
    obtain rfl := Except.ok.inj (hspace.symm.trans hspace')
    obtain rfl := Except.ok.inj (hlabels.symm.trans hlabels')
    obtain rfl := Except.ok.inj (htext.symm.trans htext')
    exact ⟨replicaSets, found, list, own, ready⟩
  · rintro ⟨replicaSets, found, list, own, ready⟩
    exact ⟨deployment, space, text, replicaSets, found, read, ⟨hspace, labels, hlabels, htext⟩,
      list, own, ready⟩

/-- The evidence for an object of a well-formed cluster shows whether it is ready. -/
theorem evidence_iff (steady : origin.IsSteady) (wellFormed : origin.IsWellFormed)
    (read : origin.IsReadFrom s) (hinfo : ref.info = .ok info)
    (known : IsKnown info ref.body) :
    (∃ record s', (evidence ref).on s = (.ok (.ok record), s') ∧ record.pending = .ok []) ↔
      IsReadyBy info ref ref.body origin := by
  -- The run is that of `s`, but what an object needs is a matter of `origin`: each call of the
  -- run is answered as it would have been at first.
  have run := evidenceRun (isWellFormed_of_store_eq wellFormed read.store) hinfo known
  have again := readDeployment_of_isReadFrom steady read ref.space ref.name
  generalize (evidence ref).on s = outcome at run
  cases run with
  | @own record shows =>
    rw [← pending_own_iff shows]
    exact ⟨fun ⟨_, _, heq, ready⟩ => by cases heq; exact ready,
      fun ready => ⟨record, s, rfl, ready⟩⟩
  | @pods labels text reply s₁ family hlabels htext list =>
    have same := listPods_of_isReadFrom steady read ref.space text
    rw [list] at same
    unfold IsReadyBy
    rw [family, hasReadyPods_iff hlabels htext, ← same]
    constructor
    · rintro ⟨record, s', heq, ready⟩
      cases reply with
      | error refusal => cases heq
      | ok pods =>
        cases heq
        exact ⟨pods, rfl, pending_pods_iff.mp ready⟩
    · rintro ⟨pods, rfl, ready⟩
      exact ⟨_, s₁, rfl, pending_pods_iff.mpr ready⟩
  | unread family missing =>
    rw [missing] at again
    unfold IsReadyBy
    rw [family]
    constructor
    · rintro ⟨_, _, heq, -⟩
      cases heq
    · rintro ⟨deployment, _, _, _, _, found, -⟩
      cases again.1.trans found
  | @unlisted deployment space text refusal s₁ s₂ family found query list =>
    rw [found] at again
    have same := listReplicaSets_of_isReadFrom steady again.2 space text
    rw [list] at same
    unfold IsReadyBy
    rw [family, hasReadyRollout_iff again.1.symm query, ← same]
    constructor
    · rintro ⟨_, _, heq, -⟩
      cases heq
    · rintro ⟨replicaSets, _, heq, -⟩
      cases heq
  | @deployment deployment space text replicaSets own s₁ s₂ family found query list hown among =>
    rw [found] at again
    have same := listReplicaSets_of_isReadFrom steady again.2 space text
    rw [list] at same
    unfold IsReadyBy
    rw [family, hasReadyRollout_iff again.1.symm query, ← same]
    constructor
    · rintro ⟨record, s', heq, ready⟩
      cases heq
      exact ⟨replicaSets, own, rfl, hown, pending_deployment_iff.mp ready⟩
    · rintro ⟨listed, own', heq, hown', ready⟩
      cases heq
      obtain rfl := Except.ok.inj (hown.symm.trans hown')
      exact ⟨_, s₂, rfl, pending_deployment_iff.mpr ready⟩

/-! ### One object -/

/-- A check of one object finds nothing that is not ready if the object is there, and all that
decides its readiness is there and shows that it is ready. -/
theorem unready_singleton_iff : ((unready [ref]).on s).1 = .ok [] ↔ ∃ body s₁,
    Cluster.get (.ofRef ref) s = (.ok body, s₁) ∧ ∃ record s₂,
      (evidence (ref.refresh body)).on s₁ = (.ok (.ok record), s₂) ∧ record.pending = .ok [] := by
  rw [unready_cons_eq_nil_iff]
  constructor
  · rintro ⟨seen, s₂, hobserve, ready, -⟩
    obtain ⟨body, s₁, record, hget, hevidence, ready⟩ :=
      observe_pending_eq_nil_iff.mp ⟨seen, hobserve, ready⟩
    exact ⟨body, s₁, hget, record, s₂, hevidence, ready⟩
  · rintro ⟨body, s₁, hget, record, s₂, hevidence, ready⟩
    obtain ⟨seen, hobserve, ready⟩ :=
      observe_pending_eq_nil_iff.mpr ⟨body, s₁, record, hget, hevidence, ready⟩
    exact ⟨seen, s₂, hobserve, ready, rfl⟩

/-- Nothing is listed for an object alone exactly if it exists and is ready. -/
theorem unready_singleton_iff_isSatisfied (readable : s.IsReadable) (typed : ref.isTyped) :
    ((unready [ref]).on s).1 = .ok [] ↔ IsSatisfied ref s := by
  obtain ⟨info, hinfo, known⟩ := exists_isKnown readable.wellFormed typed
  have decided (body : Value) (s₁ : State) (hget : Cluster.get (.ofRef ref) s = (.ok body, s₁)) :
      (∃ record s₂, (evidence (ref.refresh body)).on s₁ = (.ok (.ok record), s₂) ∧
        record.pending = .ok []) ↔ IsReadyBy info ref body s := by
    have read := isReadFrom_get readable.steady (.refl s) (.ofRef ref)
    rw [hget] at read
    have refreshed : (ref.refresh body).info = .ok info := hinfo
    exact evidence_iff readable.steady readable.wellFormed read refreshed
      (known body (Cluster.get_eq_ok hget))
  rw [unready_singleton_iff]
  constructor
  · rintro ⟨body, s₁, hget, shown⟩
    exact ⟨info, body, hinfo, by rw [hget], (decided body s₁ hget).mp shown⟩
  · rintro ⟨info', body, hinfo', hget, ready⟩
    obtain rfl := Except.ok.inj (hinfo.symm.trans hinfo')
    exact ⟨body, _, Prod.ext hget rfl, (decided body _ (Prod.ext hget rfl)).mpr ready⟩

/-! ### Sets -/

/-- A readable cluster refuses a call only as if there were no such object. -/
theorem isAbsence_of_perform (readable : origin.IsReadable) (read : origin.IsReadFrom s)
    {verb : Cluster.Verb} (reading : verb.isReading) {kind name : Value} {call : Cluster.Call}
    {answer : State → Cluster.Reply α} {refusal : ApiRefusal}
    (own : ∀ t, answer t = .error refusal → refusal.isAbsence)
    (h : (Cluster.perform verb kind name call (Cluster.unchanged answer) s).1 = .error refusal) :
    refusal.isAbsence := by
  have verdict : s.verdict verb kind name = origin.verdict verb kind name :=
    readable.steady _ read.rules _ _ _ reading
  rw [Cluster.perform_read] at h
  cases hverdict : s.verdict verb kind name with
  | some found =>
    rw [hverdict] at h
    cases h
    exact readable.absent verb kind name refusal reading (verdict.symm.trans hverdict)
  | none =>
    rw [hverdict] at h
    exact own _ h

theorem isAbsence_of_find {key : Cluster.Key} {refusal : ApiRefusal}
    (h : s.find key = .error refusal) : refusal.isAbsence := by
  unfold State.find at h
  split at h
  · cases h
  · cases h
    decide

theorem isAbsence_of_evidence (readable : origin.IsReadable) (read : origin.IsReadFrom s)
    (hinfo : ref.info = .ok info)
    (known : IsKnown info ref.body)
    {refusal : ApiRefusal} {s' : State} (h : (evidence ref).on s = (.ok (.error refusal), s')) :
    refusal.isAbsence := by
  have run := evidenceRun (isWellFormed_of_store_eq readable.wellFormed read.store) hinfo known
  have again := readDeployment_of_isReadFrom readable.steady read ref.space ref.name
  generalize (evidence ref).on s = outcome at run h
  cases run with
  | own shows => cases h
  | @pods labels text reply s₁ family hlabels htext list =>
    cases reply with
    | ok pods => cases h
    | error found =>
      cases h
      exact isAbsence_of_perform readable read rfl (fun _ h => by cases h) (congrArg Prod.fst list)
  | unread family missing =>
    cases h
    exact isAbsence_of_perform readable read rfl (fun _ => isAbsence_of_find)
      (congrArg Prod.fst missing)
  | unlisted family found query list =>
    rw [found] at again
    cases h
    exact isAbsence_of_perform readable again.2 rfl (fun _ h => by cases h)
      (congrArg Prod.fst list)
  | deployment => cases h

/-- No call is refused in a way that ends a check. -/
theorem not_isRefused (readable : origin.IsReadable) (read : origin.IsReadFrom s)
    (typed : ref.isTyped) : ¬IsRefused ref s := by
  intro refused
  cases refused with
  | get answer hard =>
    have absent := isAbsence_of_perform readable read rfl (fun _ => isAbsence_of_find)
      (congrArg Prod.fst answer)
    rw [hard] at absent
    cases absent
  | @evidence body s₁ s' refusal found answer hard =>
    have wellFormed := isWellFormed_of_store_eq readable.wellFormed read.store
    obtain ⟨info, hinfo, known⟩ := exists_isKnown wellFormed typed
    have kept := isReadFrom_get readable.steady read (.ofRef ref)
    rw [found] at kept
    have refreshed : (ref.refresh body).info = .ok info := hinfo
    have absent :=
      isAbsence_of_evidence readable kept refreshed (known body (Cluster.get_eq_ok found)) answer
    rw [hard] at absent
    cases absent

/-- A check of objects of a readable cluster finds out which of them are not ready. -/
theorem exists_unready (readable : s.IsReadable) {refs : RefSet}
    (typed : ∀ ref ∈ refs, ref.isTyped) :
    ∃ observed names, ((visit observe refs).on s).1 = .ok observed ∧
      (summary observed).pending = .ok names ∧ ((unready refs).on s).1 = .ok names := by
  rcases on_visit_observe_cases readable.wellFormed typed with
    ⟨ref, front, back, seen, s', rfl, hfront, refused⟩ | ⟨observed, s', hvisit, described⟩
  · have read : s.IsReadFrom s' := by
      have kept := (parallel_visit_of_steady readable.steady front s s ⟨.refl s, .refl s⟩).2.1
      rwa [hfront] at kept
    have typed := typed ref (by simp)
    exact (not_isRefused readable read typed refused).elim
  · obtain ⟨names, hnames, -⟩ := described
    refine ⟨observed, names, by rw [hvisit], hnames, ?_⟩
    rw [unready_eq, on_bind, hvisit]
    dsimp only
    rw [hnames]
    rfl

/-- What is not ready in two sets together is what is not ready in each of them. -/
theorem exists_unready_append (readable : s.IsReadable) {front back : RefSet}
    (typed : ∀ ref ∈ front ++ back, ref.isTyped) : ∃ first second names,
      ((unready front).on s).1 = .ok first ∧ ((unready back).on s).1 = .ok second ∧
      ((unready (front ++ back)).on s).1 = .ok names ∧ names.Perm (first ++ second) := by
  obtain ⟨before, after⟩ := List.forall_mem_append.mp typed
  obtain ⟨seen, first, hseen, hfirst, checked⟩ := exists_unready readable before
  obtain ⟨more, second, hmore, hsecond, checkedMore⟩ := exists_unready readable after
  obtain ⟨names, hnames, perm⟩ := exists_pending_append hfirst hsecond
  refine ⟨first, second, names, checked, checkedMore, ?_, perm⟩
  -- The second set is observed after the first one, on a cluster that was only read since.
  have read := (parallel_visit_of_steady readable.steady front s s ⟨.refl s, .refl s⟩).2.1
  have same := (parallel_visit_of_steady readable.steady back _ s ⟨read, .refl s⟩).1
  rw [unready_eq, visit_append, on_bind, on_bind]
  rcases hvisit : (visit observe front).on s with ⟨result, s₁⟩
  rw [hvisit] at hseen same
  obtain rfl : result = .ok seen := hseen
  dsimp only at same ⊢
  rw [on_bind]
  rcases hrest : (visit observe back).on s₁ with ⟨result, s₂⟩
  rw [hrest, hmore] at same
  obtain rfl : result = .ok more := same
  change liftFault (summary (seen ++ more)).pending = .ok names
  rw [summary_append, hnames, liftFault_ok]

theorem isReady_of_unready {refs : RefSet} {names : List String}
    (h : ((unready refs).on s).1 = .ok names) : ((isReady refs).on s).1 = .ok names.isEmpty := by
  rw [on_isReady, h]
  rfl

/-- A set is ready exactly if all its objects exist and are ready. -/
theorem exists_isReady (readable : s.IsReadable) {refs : RefSet}
    (typed : ∀ ref ∈ refs, ref.isTyped) : ∃ ready, ((isReady refs).on s).1 = .ok ready ∧
      (ready = true ↔ ∀ ref ∈ refs, IsSatisfied ref s) := by
  induction refs with
  | nil => exact ⟨true, rfl, by simp⟩
  | cons ref rest ih =>
    obtain ⟨first, second, names, hfirst, hsecond, hnames, perm⟩ :=
      exists_unready_append readable (List.singleton_append ▸ typed)
    obtain ⟨here, others⟩ := List.forall_mem_cons.mp typed
    obtain ⟨ready, hready, ready_iff⟩ := ih others
    obtain rfl := Except.ok.inj (hready.symm.trans (isReady_of_unready hsecond))
    have own : first = [] ↔ IsSatisfied ref s := by
      rw [← unready_singleton_iff_isSatisfied readable here, hfirst, Except.ok.injEq]
    refine ⟨names.isEmpty, isReady_of_unready hnames, ?_⟩
    rw [List.forall_mem_cons, ← own, ← ready_iff, List.isEmpty_iff, List.isEmpty_iff,
      ← List.append_eq_nil_iff]
    exact ⟨fun h => (h ▸ perm).nil_eq.symm, fun h => (h ▸ perm).eq_nil⟩

/-- Readiness on a readable cluster is a conjunction. What two sets together have that is not
ready is a permutation of what each has, so both are ready together if each of them is; the order
of the objects does not matter; and an object alone is found ready exactly if it exists and is
ready by the rule of its family. -/
theorem isReady_conjunction (readable : s.IsReadable) :
    (∀ front back : RefSet, (∀ ref ∈ front ++ back, ref.isTyped) →
      (∃ first second names, ((unready front).on s).1 = .ok first ∧
        ((unready back).on s).1 = .ok second ∧
        ((unready (front ++ back)).on s).1 = .ok names ∧ names.Perm (first ++ second)) ∧
      ∃ x y, ((isReady front).on s).1 = .ok x ∧ ((isReady back).on s).1 = .ok y ∧
        ((isReady (front ++ back)).on s).1 = .ok (x && y)) ∧
    (∀ refs others : RefSet, (∀ ref ∈ refs, ref.isTyped) → refs.Perm others →
      ((isReady refs).on s).1 = ((isReady others).on s).1) ∧
    ∀ ref : Ref, ref.isTyped → (((unready [ref]).on s).1 = .ok [] ↔ IsSatisfied ref s) := by
  refine ⟨?_, ?_, fun ref typed => unready_singleton_iff_isSatisfied readable typed⟩
  · intro front back typed
    obtain ⟨first, second, names, hfirst, hsecond, hnames, perm⟩ :=
      exists_unready_append readable typed
    refine ⟨⟨first, second, names, hfirst, hsecond, hnames, perm⟩, first.isEmpty, second.isEmpty,
      isReady_of_unready hfirst, isReady_of_unready hsecond, ?_⟩
    rw [isReady_of_unready hnames, perm.isEmpty_eq]
    cases first <;> rfl
  · intro refs others typed perm
    obtain ⟨ready, hready, ready_iff⟩ := exists_isReady readable typed
    have retyped : ∀ ref ∈ others, ref.isTyped := fun ref hmem => typed ref (perm.mem_iff.mpr hmem)
    obtain ⟨other, hother, other_iff⟩ := exists_isReady readable retyped
    have same : ready = other := by
      rw [Bool.eq_iff_iff, ready_iff, other_iff]
      apply forall_congr'
      intro ref
      rw [perm.mem_iff]
    rw [hready, hother, same]

/-- A cluster with a ready pod, in which pods cannot be listed. -/
def servingCluster : State :=
  { sampleCluster [samplePod "web" [] "True",
      sampleWorkload "apps/v1" "DaemonSet" "agent" (.map [])] with
    rules := [{ verb := .listPods, refusal := ⟨.int 404, .text "Not Found"⟩ }] }

/-- The pod is ready, but together with a workload whose pods are not to be found it is not. -/
theorem isReady_conjunction_web :
    let pod := sampleRef "v1" "Pod" "web"
    let workload := sampleRef "apps/v1" "DaemonSet" "agent"
    ((isReady [pod]).on servingCluster).1.toOption = some true ∧
      ((isReady [workload]).on servingCluster).1.toOption = some false ∧
      ∃ x y, ((isReady [pod]).on servingCluster).1 = .ok x ∧
        ((isReady [workload]).on servingCluster).1 = .ok y ∧
        ((isReady [pod, workload]).on servingCluster).1 = .ok (x && y) := by
  have wellFormed : servingCluster.IsWellFormed := by
    intro entry hmem kind hkind
    simp only [servingCluster, sampleCluster, List.map_cons, List.map_nil, List.mem_cons,
      List.not_mem_nil, or_false] at hmem
    rcases hmem with rfl | rfl <;> cases hkind <;> decide +kernel
  have readable : servingCluster.IsReadable := by
    refine Cluster.State.isReadable_of_rules wellFormed ?_
    exact List.forall_mem_singleton.mpr ⟨rfl, rfl⟩
  refine ⟨by decide +kernel, by decide +kernel, ?_⟩
  exact ((isReady_conjunction readable).1 [sampleRef "v1" "Pod" "web"]
    [sampleRef "apps/v1" "DaemonSet" "agent"] (by decide)).2

end Readiness

end Reconciler

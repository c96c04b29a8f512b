import Reconciler.Proofs.Readiness.Forms

/-!
# Checks of well-formed clusters

What a check does for an object is a few calls, and from their answers on everything is
determined. On a well-formed cluster none of that can fail, so a check fails only if one of its
calls is refused, and not because there is no such object.
-/

namespace Reconciler.Readiness

open Cluster (State Key Reply)
open Form Session

variable {s : State} {ref : Ref} {info : Schema.KindInfo}

/-! ### Objects from typed interfaces -/

theorem serialized_of_isJson {object : Value} (json : object.isJson) :
    serialized object = pure object := by
  rw [serialized, Value.hasSet_of_isJson json, if_neg Bool.false_ne_true,
    Value.portable_of_isJson json]

theorem serializedAll_of_isJson {objects : List Value} (json : ∀ object ∈ objects, object.isJson) :
    serializedAll objects = pure objects := by
  induction objects with
  | nil => rfl
  | cons object rest ih =>
    obtain ⟨here, others⟩ := List.forall_mem_cons.mp json
    rw [serializedAll, serialized_of_isJson here, ih others, pure_bind, pure_bind]

/-- What is listed is passed on as it is. -/
theorem on_listed {api : Cluster.Api (List Value)}
    (json : ∀ objects s', api s = (.ok objects, s') → ∀ object ∈ objects, object.isJson) :
    (listed api).on s = (.ok (api s).1, (api s).2) := by
  rw [listed, on_bind, on_lift]
  rcases hapi : api s with ⟨refusal | objects, s'⟩
  · rfl
  · dsimp only
    rw [serializedAll_of_isJson (json objects s' hapi)]
    rfl

/-! ### What decides the readiness of an object -/

/-- What the object itself shows, in the families that need nothing else. -/
def ownRecord (ref : Ref) : Schema.Readiness → Option Record
  | .pod => some { pods := [ref.body] }
  | .service => some { services := [ref.body] }
  | .volumeClaim => some { volumes := [ref.body] }
  | .job | .unrecognized => some { ignored := [ref] }
  | .deployment | .selectedPods => none

theorem on_evidence_own (hinfo : ref.info = .ok info) {record : Record}
    (own : ownRecord ref info.readiness = some record) (s : State) :
    (evidence ref).on s = (.ok (.ok record), s) := by
  rw [evidence, on_bind_ofFault hinfo]
  cases family : info.readiness <;> rw [family] at own <;> cases own <;> rfl

/-- For a workload, its pods are listed. -/
theorem on_evidence_selectedPods (wellFormed : s.IsWellFormed) (hinfo : ref.info = .ok info)
    (family : info.readiness = .selectedPods) {labels : Members} {text : String}
    (hlabels : info.podLabels ref.body = .ok labels)
    (htext : Schema.selectorText labels = .ok text) : (evidence ref).on s =
      (.ok ((Cluster.listPods ref.space text s).1.map fun pods => { pods }),
        (Cluster.listPods ref.space text s).2) := by
  have pods : (listed (Cluster.listPods ref.space text)).on s =
      (.ok (Cluster.listPods ref.space text s).1, (Cluster.listPods ref.space text s).2) := by
    refine on_listed fun pods s' hlist object hmem => ?_
    rw [Cluster.listPods_eq_ok hlist] at hmem
    exact (isWellFormed_of_select wellFormed hmem).json
  rw [evidence, on_bind_ofFault hinfo, family]
  dsimp only
  rw [on_bind_ofExcept hlabels, podsWith, bind_assoc, on_bind_ofFault htext, on_bind, pods]
  rfl

/-- The replica set of a deployment's template among those that were listed. -/
def ownReplicaSet (deployment : Value) (replicaSets : List Value) :
    Except Fault (Option Value) := do
  let own ← controlledBy deployment replicaSets
  Rollout.newReplicaSet deployment own

/-- The replica sets of a deployment are listed in a namespace and by a text. -/
def IsReplicaSetQuery (deployment space : Value) (text : String) : Prop :=
  nested deployment "metadata" "namespace" = .ok space ∧
    ∃ labels, Schema.matchLabels deployment = .ok labels ∧ Schema.selectorText labels = .ok text

theorem on_currentReplicaSet_eq {deployment space : Value} {text : String}
    (query : IsReplicaSetQuery deployment space text) (s : State) :
    (currentReplicaSet deployment).on s =
      match (listed (Cluster.listReplicaSets space text)).on s with
      | (.error failure, s) => (.error failure, s)
      | (.ok (.error refusal), s) => (.ok (.error refusal), s)
      | (.ok (.ok replicaSets), s) =>
        ((liftFault (ownReplicaSet deployment replicaSets)).map (.ok <| .ofOption ·), s) := by
  obtain ⟨hnamespace, labels, hlabels, htext⟩ := query
  obtain ⟨metadata, hmetadata, hspace⟩ := bind_eq_ok.mp hnamespace
  rw [currentReplicaSet, on_bind_ofFault hmetadata, on_bind_ofFault hspace,
    on_bind_ofFault hlabels, on_bind_ofFault htext, on_bind]
  rcases (listed (Cluster.listReplicaSets space text)).on s with
    ⟨failure | refusal | replicaSets, s'⟩
  · rfl
  · rfl
  · dsimp only
    rw [ownReplicaSet, ofFault, on_bind, on_ofExcept]
    rcases controlledBy deployment replicaSets with fault | own
    · rfl
    · dsimp only [liftFault_ok]
      rw [ofFault, on_bind, on_ofExcept]
      rcases hnew : Rollout.newReplicaSet deployment own with fault | found <;>
        simp [bind, Except.bind, hnew, Except.map, liftFault, Except.mapError]

theorem on_currentReplicaSet (wellFormed : s.IsWellFormed) {deployment space : Value}
    {text : String} (query : IsReplicaSetQuery deployment space text) :
    (currentReplicaSet deployment).on s =
      match Cluster.listReplicaSets space text s with
      | (.error refusal, s) => (.ok (.error refusal), s)
      | (.ok replicaSets, s) =>
        ((liftFault (ownReplicaSet deployment replicaSets)).map (.ok <| .ofOption ·), s) := by
  have sets : (listed (Cluster.listReplicaSets space text)).on s =
      (.ok (Cluster.listReplicaSets space text s).1,
        (Cluster.listReplicaSets space text s).2) := by
    refine on_listed fun replicaSets s' hlist object hmem => ?_
    rw [Cluster.listReplicaSets_eq_ok hlist] at hmem
    exact (isWellFormed_of_select wellFormed hmem).json
  rw [on_currentReplicaSet_eq query, sets]
  rcases Cluster.listReplicaSets space text s with ⟨refusal | replicaSets, s'⟩ <;> rfl

/-- For a deployment, it is read again and its replica sets are listed. -/
theorem on_evidence_deployment (wellFormed : s.IsWellFormed) (hinfo : ref.info = .ok info)
    (family : info.readiness = .deployment) : (evidence ref).on s =
      match Cluster.readDeployment ref.space ref.name s with
      | (.error refusal, s) => (.ok (.error refusal), s)
      | (.ok deployment, s) =>
        match (currentReplicaSet deployment).on s with
        | (.error failure, s) => (.error failure, s)
        | (.ok reply, s) =>
          (.ok (reply.map fun replicaSet => { deployments := [{ deployment, replicaSet }] }),
            s) := by
  rw [evidence, on_bind_ofFault hinfo, family]
  dsimp only
  rw [deploymentOf, bind_assoc, on_bind, on_lift]
  rcases hread : Cluster.readDeployment ref.space ref.name s with ⟨refusal | deployment, s₁⟩
  · rfl
  · have json := (isWellFormed_of_get? wellFormed rfl (Cluster.readDeployment_eq_ok hread)).json
    dsimp only
    rw [serialized_of_isJson json, pure_bind, bind_assoc, on_bind]
    rcases (currentReplicaSet deployment).on s₁ with ⟨failure | ⟨refusal | replicaSet⟩, s₂⟩ <;> rfl

/-! ### Well-formed objects can be read -/

theorem gives_podLabels {rule : Schema.SelectorRule} {object : Value}
    (hrule : info.selector = some rule) (h : rule.form.fits object)
    (present : object.isNull = false) (json : object.isJson) :
    Gives (info.podLabels object) fun labels => Members.isNamed labels := by
  obtain ⟨metadata, hmetadata, -⟩ := gives_get h present "metadata" rfl
  obtain ⟨labels, hlabels, named⟩ := Schema.gives_labels rule h present json
  refine ⟨labels, ?_, named⟩
  unfold Schema.KindInfo.podLabels
  rw [hmetadata, hrule]
  change liftFault (rule.labels object) = _
  rw [hlabels, liftFault_ok]

/-- A pod of a well-formed cluster is ready or not, and it can be described. -/
theorem gives_pod {pod : Value} (h : IsWellFormed "Pod" pod) :
    Gives (podReady pod) (fun _ => True) ∧ Gives (describe pod) fun _ => True :=
  ⟨gives_podReady h.fits_podForm h.present, gives_describe h.fits_podForm h.present rfl⟩

theorem gives_controlledBy {deployment : Value} (h : IsWellFormed "Deployment" deployment)
    {replicaSets : List Value}
    (sets : ∀ replicaSet ∈ replicaSets, IsWellFormed "ReplicaSet" replicaSet) :
    Gives (controlledBy deployment replicaSets) fun own =>
      ∀ object ∈ own, object ∈ replicaSets := by
  induction replicaSets with
  | nil => exact gives_ok nofun
  | cons replicaSet rest ih =>
    obtain ⟨here, others⟩ := List.forall_mem_cons.mp sets
    refine (Rollout.gives_isControlledBy (here.replicaSet rfl) here.present
      h.fits_deploymentForm.1 h.present).bind fun controls _ => ?_
    refine (ih others).bind fun own among => gives_ok fun object hmem => ?_
    split at hmem
    · exact (List.mem_cons.mp hmem).elim (fun heq => heq ▸ List.mem_cons_self ..)
        fun hmem => List.mem_cons_of_mem _ (among object hmem)
    · exact List.mem_cons_of_mem _ (among object hmem)

theorem gives_ownReplicaSet {deployment : Value} (h : IsWellFormed "Deployment" deployment)
    {replicaSets : List Value}
    (sets : ∀ replicaSet ∈ replicaSets, IsWellFormed "ReplicaSet" replicaSet) :
    Gives (ownReplicaSet deployment replicaSets) fun found =>
      ∀ replicaSet, found = some replicaSet → replicaSet ∈ replicaSets := by
  refine (gives_controlledBy h sets).bind fun own among => ?_
  refine (Rollout.gives_newReplicaSet h.fits_deploymentForm.1 h.present fun replicaSet hmem =>
    ?_).mono fun found hfound replicaSet heq => among _ (hfound replicaSet heq)
  have known := sets replicaSet (among replicaSet hmem)
  exact ⟨known.present, known.replicaSet rfl⟩

/-- Objects of all kinds whose readiness is decided by pods have a rule for their selector. -/
theorem selector_of_selectedPods : ∀ info ∈ Schema.registry, info.readiness = .selectedPods →
    info.selector.isSome := by decide

/-- It is known by which labels the pods of a workload are listed. -/
theorem exists_podSelector (listed : info ∈ Schema.registry)
    (family : info.readiness = .selectedPods) {body : Value} (h : IsWellFormed info.kind body) :
    ∃ labels text, info.podLabels body = .ok labels ∧ Schema.selectorText labels = .ok text := by
  have forms := h.forms info listed rfl
  rw [formsOf, family] at forms
  obtain ⟨rule, hrule⟩ :=
    Option.isSome_iff_exists.mp (selector_of_selectedPods info listed family)
  have form := forms rule.form (by simp [hrule])
  obtain ⟨labels, hlabels, named⟩ := gives_podLabels hrule form h.present h.json
  obtain ⟨text, htext, -⟩ := Schema.gives_selectorText named
  exact ⟨labels, text, hlabels, htext⟩

theorem exists_replicaSetQuery {deployment : Value} (h : IsWellFormed "Deployment" deployment) :
    ∃ space text, IsReplicaSetQuery deployment space text := by
  obtain ⟨hform, hselector⟩ := h.fits_deploymentForm
  obtain ⟨space, hspace, -⟩ := gives_nested_any hform h.present "metadata" rfl "namespace"
  obtain ⟨labels, hlabels, named⟩ := Schema.gives_labels .matchLabels hselector h.present h.json
  obtain ⟨text, htext, -⟩ := Schema.gives_selectorText named
  exact ⟨space, text, hspace, labels, hlabels, htext⟩

/-! ### Getting the evidence -/

/-- The ways in which the evidence for an object of a well-formed cluster is got, with what comes
of it. Each call may be refused, and nothing else can go wrong. -/
inductive EvidenceRun (ref : Ref) (info : Schema.KindInfo) (s : State) :
    Except Failure (Reply Record) × State → Prop
  /-- The object shows by itself whether it is ready. -/
  | own {record : Record} (shows : ownRecord ref info.readiness = some record) :
    EvidenceRun ref info s (.ok (.ok record), s)
  /-- The pods of a workload are listed. -/
  | pods {labels : Members} {text : String} {reply : Reply (List Value)} {s₁ : State}
    (family : info.readiness = .selectedPods) (hlabels : info.podLabels ref.body = .ok labels)
    (htext : Schema.selectorText labels = .ok text)
    (list : Cluster.listPods ref.space text s = (reply, s₁)) :
    EvidenceRun ref info s (.ok (reply.map fun pods => { pods }), s₁)
  /-- A deployment cannot be read by its typed interface. -/
  | unread {refusal : ApiRefusal} {s₁ : State} (family : info.readiness = .deployment)
    (read : Cluster.readDeployment ref.space ref.name s = (.error refusal, s₁)) :
    EvidenceRun ref info s (.ok (.error refusal), s₁)
  /-- Its replica sets cannot be listed. -/
  | unlisted {deployment space : Value} {text : String} {refusal : ApiRefusal} {s₁ s₂ : State}
    (family : info.readiness = .deployment)
    (read : Cluster.readDeployment ref.space ref.name s = (.ok deployment, s₁))
    (query : IsReplicaSetQuery deployment space text)
    (list : Cluster.listReplicaSets space text s₁ = (.error refusal, s₂)) :
    EvidenceRun ref info s (.ok (.error refusal), s₂)
  /-- The replica set of its template is looked for among those that are listed. -/
  | deployment {deployment space : Value} {text : String} {replicaSets : List Value}
    {found : Option Value} {s₁ s₂ : State} (family : info.readiness = .deployment)
    (read : Cluster.readDeployment ref.space ref.name s = (.ok deployment, s₁))
    (query : IsReplicaSetQuery deployment space text)
    (list : Cluster.listReplicaSets space text s₁ = (.ok replicaSets, s₂))
    (own : ownReplicaSet deployment replicaSets = .ok found)
    (among : ∀ replicaSet, found = some replicaSet → replicaSet ∈ replicaSets) :
    EvidenceRun ref info s
      (.ok (.ok { deployments := [{ deployment, replicaSet := .ofOption found }] }), s₂)

theorem evidenceRun_deployment (wellFormed : s.IsWellFormed) (hinfo : ref.info = .ok info)
    (family : info.readiness = .deployment) : EvidenceRun ref info s ((evidence ref).on s) := by
  rw [on_evidence_deployment wellFormed hinfo family]
  rcases hread : Cluster.readDeployment ref.space ref.name s with ⟨refusal | deployment, s₁⟩
  · exact .unread family hread
  · have known := isWellFormed_of_get? wellFormed rfl (Cluster.readDeployment_eq_ok hread)
    have same := (Cluster.called_readDeployment ref.space ref.name s).store_eq
    rw [hread] at same
    have later := isWellFormed_of_store_eq wellFormed same
    obtain ⟨space, text, query⟩ := exists_replicaSetQuery known
    dsimp only
    rw [on_currentReplicaSet later query]
    rcases hlist : Cluster.listReplicaSets space text s₁ with ⟨refusal | replicaSets, s₂⟩
    · exact .unlisted family hread query hlist
    · have sets : ∀ replicaSet ∈ replicaSets, IsWellFormed "ReplicaSet" replicaSet := by
        intro replicaSet hmem
        rw [Cluster.listReplicaSets_eq_ok hlist] at hmem
        exact isWellFormed_of_select later hmem
      obtain ⟨found, hfound, among⟩ := gives_ownReplicaSet known sets
      dsimp only
      rw [hfound]
      exact .deployment family hread query hlist hfound among

theorem evidenceRun (wellFormed : s.IsWellFormed) (hinfo : ref.info = .ok info)
    (known : IsKnown info ref.body) :
    EvidenceRun ref info s ((evidence ref).on s) := by
  cases shows : ownRecord ref info.readiness with
  | some record =>
    rw [on_evidence_own hinfo shows]
    exact .own shows
  | none =>
    rcases known with rfl | ⟨listed, h⟩
    · cases shows
    · cases family : info.readiness with
      | selectedPods =>
        obtain ⟨labels, text, hlabels, htext⟩ := exists_podSelector listed family h
        rw [on_evidence_selectedPods wellFormed hinfo family hlabels htext]
        exact .pods family hlabels htext rfl
      | deployment => exact evidenceRun_deployment wellFormed hinfo family
      | _ =>
        rw [family] at shows
        cases shows

/-! ### Checks do not fail by themselves -/

theorem gives_pending {record : Record}
    (pods : ∀ pod ∈ record.pods,
      Gives (podReady pod) (fun _ => True) ∧ Gives (describe pod) fun _ => True)
    (services : ∀ service ∈ record.services,
      Gives (serviceReady service) (fun _ => True) ∧ Gives (describe service) fun _ => True)
    (volumes : ∀ claim ∈ record.volumes,
      Gives (claimReady claim) (fun _ => True) ∧ Gives (describe claim) fun _ => True)
    (deployments : ∀ pair ∈ record.deployments,
      Gives (deploymentReady pair.deployment pair.replicaSet) (fun _ => True) ∧
        Gives (describe pair.deployment) fun _ => True) :
    Gives record.pending fun _ => True := by
  refine (gives_pendingOf pods).bind fun _ _ => ?_
  refine (gives_pendingOf services).bind fun _ _ => ?_
  refine (gives_pendingOf volumes).bind fun _ _ => ?_
  exact (gives_pendingOf deployments).bind fun _ _ => gives_ok trivial

theorem gives_pending_own
    (known : IsKnown info ref.body)
    {record : Record} (shows : ownRecord ref info.readiness = some record) :
    Gives record.pending fun _ => True := by
  rcases known with rfl | ⟨listed, h⟩
  · cases shows
    exact gives_pending nofun nofun nofun nofun
  · have forms := h.forms info listed rfl
    unfold formsOf at forms
    cases family : info.readiness with
    | pod =>
      rw [family] at forms shows
      cases shows
      have form := forms podForm (List.mem_cons_self ..)
      refine gives_pending (List.forall_mem_singleton.mpr ?_) nofun nofun nofun
      exact ⟨gives_podReady form h.present, gives_describe form h.present rfl⟩
    | service =>
      rw [family] at forms shows
      cases shows
      have form := forms serviceForm (List.mem_cons_self ..)
      refine gives_pending nofun (List.forall_mem_singleton.mpr ?_) nofun nofun
      exact ⟨gives_serviceReady form h.present, gives_describe form h.present rfl⟩
    | volumeClaim =>
      rw [family] at forms shows
      cases shows
      have form := forms claimForm (List.mem_cons_self ..)
      refine gives_pending nofun nofun (List.forall_mem_singleton.mpr ?_) nofun
      exact ⟨gives_claimReady form h.present, gives_describe form h.present rfl⟩
    | job | unrecognized =>
      rw [family] at shows
      cases shows
      exact gives_pending nofun nofun nofun nofun
    | deployment | selectedPods =>
      rw [family] at shows
      cases shows

/-- The evidence for an object of a well-formed cluster is complete, unless a call for it is
refused. -/
theorem on_evidence_cases (wellFormed : s.IsWellFormed) (hinfo : ref.info = .ok info)
    (known : IsKnown info ref.body) :
    ∃ reply s', (evidence ref).on s = (.ok reply, s') ∧
      ∀ record, reply = .ok record → Gives record.pending fun _ => True := by
  have run := evidenceRun wellFormed hinfo known
  generalize (evidence ref).on s = outcome at run
  cases run with
  | own shows => exact ⟨_, s, rfl, fun _ heq => Except.ok.inj heq ▸ gives_pending_own known shows⟩
  | @pods labels text reply s₁ family hlabels htext list =>
    refine ⟨_, s₁, rfl, fun record hrecord => ?_⟩
    cases reply with
    | error refusal => cases hrecord
    | ok pods =>
      cases hrecord
      refine gives_pending (fun pod hmem => ?_) nofun nofun nofun
      rw [Cluster.listPods_eq_ok list] at hmem
      exact gives_pod (isWellFormed_of_select wellFormed hmem)
  | unread family read => exact ⟨_, _, rfl, nofun⟩
  | unlisted family read query list => exact ⟨_, _, rfl, nofun⟩
  | @deployment deployment space text replicaSets found s₁ s₂ family read query list own among =>
    have known := isWellFormed_of_get? wellFormed rfl (Cluster.readDeployment_eq_ok read)
    have same := (Cluster.called_readDeployment ref.space ref.name s).store_eq
    rw [read] at same
    -- Without a replica set the deployment is paired with null, which has every form.
    have fits : Rollout.replicaSetForm.fits (Value.ofOption found) := by
      cases found with
      | none => rfl
      | some replicaSet =>
        have listed := among replicaSet rfl
        rw [Cluster.listReplicaSets_eq_ok list, same] at listed
        exact (isWellFormed_of_select wellFormed listed).replicaSet rfl
    refine ⟨_, s₂, rfl, fun record hrecord => ?_⟩
    cases hrecord
    refine gives_pending nofun nofun nofun (List.forall_mem_singleton.mpr ⟨?_, ?_⟩)
    · exact gives_deploymentReady known.fits_deploymentForm.1 known.present fits
    · exact gives_describe known.fits_deploymentForm.1 known.present rfl

/-- An object of a well-formed cluster is observed, unless a call for it is refused. -/
theorem on_observe_cases (wellFormed : s.IsWellFormed) (typed : ref.isTyped) :
    IsRefused ref s ∨ ∃ seen s', (observe ref).on s = (.ok seen, s') ∧
      Gives seen.2.pending fun _ => True := by
  have missing (ref : Ref) : Gives ({ missing := [ref] } : Record).pending fun _ => True :=
    gives_pending nofun nofun nofun nofun
  rw [on_observe]
  rcases hget : Cluster.get (.ofRef ref) s with ⟨refusal | body, s₁⟩
  · cases hard : refusal.isAbsence with
    | true => exact .inr ⟨_, s₁, if_pos hard, missing ref⟩
    | false => exact .inl (.get hget hard)
  · obtain ⟨info, hinfo, known⟩ := exists_isKnown wellFormed typed
    have same := (Cluster.called_get (.ofRef ref) s).store_eq
    rw [hget] at same
    have later := isWellFormed_of_store_eq wellFormed same
    have refreshed : (ref.refresh body).info = .ok info := hinfo
    obtain ⟨reply, s₂, hevidence, described⟩ :=
      on_evidence_cases later refreshed (known body (Cluster.get_eq_ok hget))
    dsimp only
    rw [hevidence]
    cases reply with
    | ok record => exact .inr ⟨_, s₂, rfl, described record rfl⟩
    | error refusal =>
      cases hard : refusal.isAbsence with
      | true => exact .inr ⟨_, s₂, if_pos hard, missing _⟩
      | false => exact .inl (.evidence hget hevidence hard)

/-- All objects of a well-formed cluster are observed, unless a call for one of them is refused. -/
theorem on_visit_observe_cases {refs : RefSet} (wellFormed : s.IsWellFormed)
    (typed : ∀ ref ∈ refs, ref.isTyped) : (∃ ref, IsRefusedAt refs s ref) ∨
      ∃ observed s', (visit observe refs).on s = (.ok observed, s') ∧
        Gives (summary observed).pending fun _ => True := by
  induction refs generalizing s with
  | nil => exact .inr ⟨[], s, rfl, [], rfl, trivial⟩
  | cons ref rest ih =>
    obtain ⟨here, others⟩ := List.forall_mem_cons.mp typed
    rcases on_observe_cases wellFormed here with refused | ⟨seen, s₁, hobserve, described⟩
    · exact .inl ⟨ref, [], rest, [], s, rfl, rfl, refused⟩
    · -- Observing keeps the store, so the cluster is as well-formed for the others.
      have same := (meets_observe Contract.permitsChecks_checking ref s).1.1
      rw [hobserve] at same
      have later := isWellFormed_of_store_eq wellFormed same
      rcases ih later others with ⟨other, front, back, more, s₂, rfl, hfront, refused⟩ |
        ⟨observed, s₂, hrest, more⟩
      · refine .inl ⟨other, ref :: front, back, seen :: more, s₂, rfl, ?_, refused⟩
        rw [visit_cons, on_bind, hobserve]
        dsimp only
        rw [on_bind, hfront]
        rfl
      · refine .inr ⟨seen :: observed, s₂, ?_, ?_⟩
        · rw [visit_cons, on_bind, hobserve]
          dsimp only
          rw [on_bind, hrest]
          rfl
        · obtain ⟨first, hfirst, -⟩ := described
          obtain ⟨second, hsecond, -⟩ := more
          obtain ⟨names, hnames, -⟩ := exists_pending_append hfirst hsecond
          rw [summary_cons]
          exact ⟨names, hnames, trivial⟩

/-- A check of a well-formed cluster fails only if a call of it is refused. -/
theorem isRefusedAt_of_on_unready {refs : RefSet} (wellFormed : s.IsWellFormed)
    (typed : ∀ ref ∈ refs, ref.isTyped) {failure : Failure}
    (h : ((unready refs).on s).1 = .error failure) : ∃ ref, IsRefusedAt refs s ref := by
  rcases on_visit_observe_cases wellFormed typed with refused | ⟨observed, s', hvisit, described⟩
  · exact refused
  · obtain ⟨names, hnames, -⟩ := described
    rw [unready_eq, on_bind, hvisit] at h
    dsimp only at h
    rw [hnames] at h
    cases h

end Reconciler.Readiness

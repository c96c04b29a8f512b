import Reconciler.Proofs.Client.Building
import Reconciler.Proofs.Client.Updating
import Reconciler.Proofs.Cluster.Calls
import Reconciler.Proofs.Manifest.Identity
import Reconciler.Proofs.Patch.Rearranging
import Reconciler.Proofs.Schema.Total
import Reconciler.Proofs.Value.Decidable

/-!
# Updates that change nothing

An update to a manifest that describes the same objects, each with what may be rearranged in
another order, gets each of them twice and does nothing else. It neither patches an object nor
deletes one, whatever is asked of it in case of changes and whatever the settings are.

This holds as long as the server refuses none of these calls. Inside of a list that is not merged
nothing may be rearranged: such a list is sent as a whole.
-/

namespace Reconciler

open Cluster (State Key Rule)
open Schema (Slot)

namespace Cluster

/-- The rules after objects have been got one after another, if they refuse none of the calls. -/
def rulesAfterGets? : List Key → List Rule → Option (List Rule)
  | [], rules => some rules
  | key :: rest, rules =>
    match tryRules .get key.kind key.name rules with
    | (none, later) => rulesAfterGets? rest later
    | (some _, _) => none

theorem rulesAfterGets?_cons {key : Key} {rest : List Key} {rules last : List Rule} :
    rulesAfterGets? (key :: rest) rules = some last ↔ ∃ later,
      tryRules .get key.kind key.name rules = (none, later) ∧
        rulesAfterGets? rest later = some last := by
  rw [rulesAfterGets?]
  cases tryRules .get key.kind key.name rules with
  | mk refusal later => cases refusal <;> simp

theorem rulesAfterGets?_append {front back : List Key} {rules last : List Rule} :
    rulesAfterGets? (front ++ back) rules = some last ↔ ∃ later,
      rulesAfterGets? front rules = some later ∧ rulesAfterGets? back later = some last := by
  induction front generalizing rules with
  | nil => simp [rulesAfterGets?]
  | cons key rest ih =>
    simp only [List.cons_append, rulesAfterGets?_cons, ih]
    constructor
    · rintro ⟨mid, first, later, more, others⟩
      exact ⟨later, ⟨mid, first, more⟩, others⟩
    · rintro ⟨later, ⟨mid, first, more⟩, others⟩
      exact ⟨mid, first, later, more, others⟩

/-- A cluster of which nothing is changed but the record of calls, by gets, and the rules. -/
def State.afterGets (s : State) (keys : List Key) (rules : List Rule) : State :=
  { s with calls := s.calls ++ keys.map .get, rules }

theorem State.afterGets_afterGets (s : State) (front back : List Key) (rules later : List Rule) :
    (s.afterGets front rules).afterGets back later = s.afterGets (front ++ back) later := by
  rw [afterGets, afterGets, afterGets, List.map_append, List.append_assoc]

theorem State.afterGets_nil (s : State) : s.afterGets [] s.rules = s := by
  rw [afterGets, List.map_nil, List.append_nil]

/-- Whether a call gets an object. -/
def Call.isGet : Call → Bool
  | .get _ => true
  | _ => false

theorem get_eq_afterGets {key : Key} {body : Value} {s : State} {rules : List Rule}
    (found : s.store.get? key = some body)
    (h : tryRules .get key.kind key.name s.rules = (none, rules)) :
    get key s = (.ok body, s.afterGets [key] rules) := by
  rw [get, perform_of_accepted h, unchanged, State.find]
  simp only [State.record, found, State.afterGets, List.map_singleton]

end Cluster

/-- A reference whose body has canonical text, with text for its kind and its API version. -/
structure Ref.IsPlain (ref : Ref) : Prop where
  regular : ref.body.isRegular
  encodes : ∃ text, Json.encode ref.body = .ok text
  version : ∃ version, ref.body.get "apiVersion" = .ok (.text version)
  kind : ∃ kind, ref.body.get "kind" = .ok (.text kind)

/-- Two references to one object, whose bodies are rearranged on the wire. -/
structure Ref.IsRearranged (inside : Bool) (x y : Ref) : Prop where
  identity : x.sameIdentity y
  body : ∀ info, Schema.lookupObject y.body = .ok info →
    Patch.Rearranged inside { type := info.model } (Json.wire x.body) (Json.wire y.body)

/-- Two sets of references to the same objects, in any order, whose bodies are rearranged. -/
def RefSet.AreRearranged (inside : Bool) (earlier targets : RefSet) : Prop :=
  ∃ order : RefSet, order.Perm earlier ∧ List.Forall₂ (Ref.IsRearranged inside) order targets

namespace RefSet

variable {refs : RefSet} {x y : Ref}

theorem sameIdentity_symm (h : x.sameIdentity y) : y.sameIdentity x := by
  rw [Ref.sameIdentity, Bool.and_eq_true, Bool.and_eq_true] at h ⊢
  exact ⟨⟨Value.equal_symm h.1.1, Value.equal_symm h.1.2⟩, Value.equal_symm h.2⟩

theorem sameIdentity_trans {z : Ref} (h : x.sameIdentity y) (k : y.sameIdentity z) :
    x.sameIdentity z := by
  rw [Ref.sameIdentity, Bool.and_eq_true, Bool.and_eq_true] at h k ⊢
  exact ⟨⟨Value.equal_trans h.1.1 k.1.1, Value.equal_trans h.1.2 k.1.2⟩,
    Value.equal_trans h.2 k.2⟩

/-- In a set without duplicates a reference is found by its identity. -/
theorem get?_of_mem (distinct : Manifest.Distinct refs) (hmem : x ∈ refs)
    (same : x.sameIdentity y) : refs.get? y = some x := by
  induction refs with
  | nil => cases hmem
  | cons first rest ih =>
    obtain ⟨apart, others⟩ := List.pairwise_cons.mp distinct
    rw [get?, List.find?_cons]
    cases hmem with
    | head => rw [same]
    | tail _ hrest =>
      have differ : first.sameIdentity y = false := by
        refine Bool.eq_false_iff.mpr fun other => ?_
        have twice := sameIdentity_trans other (sameIdentity_symm same)
        rw [apart x hrest] at twice
        cases twice
      rw [differ]
      exact ih others hrest

end RefSet

namespace Client

open Session

variable {client : Client} {options : UpdateOptions} {earlier targets : RefSet} {x y : Ref}
  {s : State} {rules : List Rule}

/-- Nothing is to be sent for a target. -/
def IsSettled (earlier : RefSet) (target : Ref) : Prop :=
  ∃ old decision, earlier.get? target = some old ∧
    decisionFor target old.body = .ok decision ∧ decision.patch = none

/-- Each target is got twice. -/
def lookups (targets : RefSet) : List Key :=
  targets.flatMap fun target => [.ofRef target, .ofRef target]

/-- A reference with the body that is stored for it, if there is one. -/
def current (s : State) (target : Ref) : Ref :=
  target.refresh ((s.store.get? (.ofRef target)).getD .null)

/-- Nothing is decided for two rearranged bodies. -/
theorem decisionFor_of_rearranged (plainX : x.IsPlain) (plainY : y.IsPlain)
    (h : x.IsRearranged false y) :
    ∃ decision, decisionFor y x.body = .ok decision ∧ decision.patch = none := by
  obtain ⟨regularX, ⟨textX, encodedX⟩, ⟨versionX, hversionX⟩, -⟩ := plainX
  obtain ⟨regularY, ⟨textY, encodedY⟩, ⟨version, hversion⟩, ⟨kind, hkind⟩⟩ := plainY
  obtain ⟨info, hinfo, -⟩ := Schema.gives_lookup version kind
  have lookup : Schema.lookupObject y.body = .ok info := by
    rw [Schema.lookupObject, hversion]
    refine bind_eq_ok.mpr ⟨_, rfl, ?_⟩
    rw [hkind]
    exact hinfo
  have rearranged := h.body info lookup
  generalize x.body = bodyX at *
  generalize hbody : y.body = bodyY at *
  cases bodyX with
  | map current =>
    cases bodyY with
    | map desired =>
      obtain ⟨decision, hdecision, empty⟩ := Patch.exists_between_of_rearranged regularX regularY
        encodedX encodedY lookup rearranged
      refine ⟨decision, ?_, empty⟩
      rw [decisionFor, hbody, hdecision]
      rfl
    | _ => cases hversion
  | _ => cases hversionX

/-- The turn of a target for which nothing is to be sent. -/
theorem on_reconcile_of_settled (client : Client) (keepsPods : options.restartsPods = false)
    {target : Ref} (settled : IsSettled earlier target) {body : Value}
    (found : s.store.get? (.ofRef target) = some body)
    (accepted : Cluster.rulesAfterGets? [.ofRef target, .ofRef target] s.rules = some rules) :
    (client.reconcile options earlier target).on s =
      (.ok (target.refresh body, none), s.afterGets [.ofRef target, .ofRef target] rules) := by
  obtain ⟨old, decision, hold, hdecision, empty⟩ := settled
  obtain ⟨later, first, accepted⟩ := Cluster.rulesAfterGets?_cons.mp accepted
  obtain ⟨last, second, done⟩ := Cluster.rulesAfterGets?_cons.mp accepted
  obtain rfl := Option.some.inj done
  have again := Cluster.get_eq_afterGets (s := s.afterGets [.ofRef target] later) found second
  rw [reconcile, on_bind, on_lift, Cluster.get_eq_afterGets found first]
  dsimp only
  rw [settle, hold]
  dsimp only
  rw [on_bind, on_recorded, updateObject, on_bind_ofExcept hdecision, empty]
  dsimp only
  rw [on_bind, refresh, on_bind, on_call, again, State.afterGets_afterGets]
  dsimp only [Except.mapError]
  rw [keepsPods]
  rfl

/-- A run over targets for none of which anything is to be sent. -/
theorem on_visit_of_settled (client : Client) (keepsPods : options.restartsPods = false)
    (settled : ∀ target ∈ targets, IsSettled earlier target)
    (present : ∀ target ∈ targets, (s.store.get? (.ofRef target)).isSome)
    (accepted : Cluster.rulesAfterGets? (lookups targets) s.rules = some rules) :
    (visit (client.reconcile options earlier) targets).on s =
      (.ok (targets.map fun target => (current s target, none)),
        s.afterGets (lookups targets) rules) := by
  induction targets generalizing s with
  | nil =>
    obtain rfl := Option.some.inj accepted
    rw [lookups, List.flatMap_nil, State.afterGets_nil]
    rfl
  | cons target rest ih =>
    obtain ⟨here, others⟩ := List.forall_mem_cons.mp settled
    obtain ⟨there, presents⟩ := List.forall_mem_cons.mp present
    obtain ⟨body, found⟩ := Option.isSome_iff_exists.mp there
    obtain ⟨later, first, accepted⟩ := Cluster.rulesAfterGets?_append.mp accepted
    -- The first turn leaves the store as it is, so the others find what was there before.
    have rest' := @ih (s.afterGets [.ofRef target, .ofRef target] later) others presents accepted
    rw [visit_cons, on_bind, on_reconcile_of_settled client keepsPods here found first]
    dsimp only
    rw [on_bind, rest', State.afterGets_afterGets, List.map_cons, current, found]
    rfl

/-- An update of references for none of which anything is to be sent. -/
theorem on_updateRefs_of_settled (client : Client) (keepsPods : options.restartsPods = false)
    (leaves : options.isWaiting = false) (settled : ∀ target ∈ targets, IsSettled earlier target)
    (kept : earlier.difference targets = [])
    (present : ∀ target ∈ targets, (s.store.get? (.ofRef target)).isSome)
    (accepted : Cluster.rulesAfterGets? (lookups targets) s.rules = some rules) :
    (client.updateRefs options earlier targets).on s =
      (.ok (targets.map (current s)), s.afterGets (lookups targets) rules) := by
  have clear : (targets.map fun target => (current s target, (none : Option Problem))).filterMap
      (·.2) = [] := by
    rw [List.filterMap_map]
    exact List.filterMap_eq_nil_iff.mpr fun _ _ => rfl
  rw [updateRefs, on_bind, on_visit_of_settled client keepsPods settled present accepted, kept]
  dsimp only
  rw [conclude, clear, waitIf, leaves, List.map_map]
  rfl

/-- Rearranged targets are settled, and no object is left for the deletions. -/
theorem settled_of_areRearranged (distinct : Manifest.Distinct earlier)
    (plainEarlier : ∀ ref ∈ earlier, ref.IsPlain) (plainTargets : ∀ ref ∈ targets, ref.IsPlain)
    (same : earlier.AreRearranged false targets) :
    (∀ target ∈ targets, IsSettled earlier target) ∧ earlier.difference targets = [] := by
  obtain ⟨order, perm, related⟩ := same
  constructor
  · intro y hy
    obtain ⟨x, hx, h⟩ := Json.exists_of_mem_right related hy
    have hmem := perm.mem_iff.mp hx
    obtain ⟨decision, hdecision, empty⟩ :=
      decisionFor_of_rearranged (plainEarlier x hmem) (plainTargets y hy) h
    exact ⟨x, decision, RefSet.get?_of_mem distinct hmem h.identity, hdecision, empty⟩
  · refine List.filter_eq_nil_iff.mpr fun x hx => ?_
    obtain ⟨y, hy, h⟩ := Json.exists_of_mem_right related.flip (perm.mem_iff.mpr hx)
    have kept : targets.contains x = true :=
      (RefSet.contains_iff targets x).mpr ⟨y, hy, RefSet.sameIdentity_symm h.identity⟩
    simp [kept]

/-- An update to a manifest of the same objects, rearranged, changes nothing. If they are all
there and the server refuses none of the calls, then the update gets each of them twice, leaves
everything else as it is, and gives the references with what is stored. -/
theorem update_keeps_rearranged (client : Client) (space : Value)
    (original target : Manifest.Source) (options : UpdateOptions) (s : State)
    {earlier targets : RefSet} {rules : List Rule}
    (hearlier : builtOn s space original = .ok earlier)
    (htargets : builtOn s space target = .ok targets)
    (plainEarlier : ∀ ref ∈ earlier, ref.IsPlain) (plainTargets : ∀ ref ∈ targets, ref.IsPlain)
    (same : earlier.AreRearranged false targets)
    (present : ∀ ref ∈ targets, (s.store.get? (.ofRef ref)).isSome)
    (accepted : Cluster.rulesAfterGets? (lookups targets) s.rules = some rules)
    (keepsPods : options.restartsPods = false) (leaves : options.isWaiting = false) :
    (client.update space original target options).on s =
      (.ok (targets.map fun ref => ref.refresh ((s.store.get? (.ofRef ref)).getD .null)),
        { s with
          calls := s.calls ++ targets.flatMap fun ref => [.get (.ofRef ref), .get (.ofRef ref)]
          rules }) := by
  have distinct := Manifest.distinct_of_build hearlier
  obtain ⟨settled, kept⟩ := settled_of_areRearranged distinct plainEarlier plainTargets same
  rw [on_update client space original target options hearlier htargets,
    on_updateRefs_of_settled client keepsPods leaves settled kept present accepted,
    State.afterGets, lookups, List.map_flatMap]
  rfl

/-! ### Manifests that are rearranged -/

/-- The members of an object that is in the default namespace. -/
def objectMembers (apiVersion kind name : String) (more : Members) : Members := [
  (.text "apiVersion", .text apiVersion),
  (.text "kind", .text kind),
  (.text "metadata", .map [(.text "name", .text name), (.text "namespace", .text "default")])] ++
    more

/-- The reference of an object that is in the default namespace. -/
def objectRef (apiVersion kind name : String) (body : Members) : Ref where
  name := .text name
  space := .text "default"
  kind := .text kind
  apiVersion := .text apiVersion
  body := .map body

theorem isPlain_objectRef {apiVersion kind name : String} {body : Members}
    (regular : (Value.map body).isRegular) (encodes : (Json.encode (.map body)).isOk)
    (version : body.field? "apiVersion" = some (.text apiVersion))
    (named : body.field? "kind" = some (.text kind)) :
    (objectRef apiVersion kind name body).IsPlain where
  regular := regular
  encodes := exists_of_isOk encodes
  version := ⟨apiVersion, by rw [objectRef, Value.get_map, version, Value.ofOption_some]⟩
  kind := ⟨kind, by rw [objectRef, Value.get_map, named, Value.ofOption_some]⟩

/-- Elements that have one member each, with some values. -/
def elementsAt (name : String) (values : List Value) : List Value :=
  values.map fun value => .map [(.text name, value)]

theorem areKeyed_elementsAt {name : String} {values : List Value}
    (scalar : ∀ value ∈ values, value.isLeaf)
    (apart : Patch.haveDistinctKeys name (elementsAt name values)) :
    Patch.AreKeyed name (elementsAt name values) where
  keyed := by
    intro item hmem
    obtain ⟨value, hvalue, rfl⟩ := List.mem_map.mp hmem
    exact ⟨_, value, rfl, Members.field?_cons_self name value [], scalar value hvalue⟩
  apart := of_decide_eq_true apart

/-- A config map and a service. -/
def zoneAndService : String :=
  "apiVersion: v1\nkind: ConfigMap\nmetadata:\n  name: zone\n---\n" ++
    "apiVersion: v1\nkind: Service\nmetadata:\n  name: dns\nspec:\n" ++
    "  ports:\n  - port: 53\n  - port: 80\n"

/-- The same objects in the other order, with their members and the ports in another order. -/
def serviceAndZone : String :=
  "spec:\n  ports:\n  - port: 80\n  - port: 53\nmetadata:\n  name: dns\nkind: Service\n" ++
    "apiVersion: v1\n---\nmetadata:\n  name: zone\nkind: ConfigMap\napiVersion: v1\n"

/-- The members of the config map. -/
def zoneMembers : Members := objectMembers "v1" "ConfigMap" "zone" []

/-- The members of the service with some ports. -/
def serviceMembers (ports : List Value) : Members :=
  objectMembers "v1" "Service" "dns"
    [(.text "spec", .map [(.text "ports", .list (elementsAt "port" ports))])]

/-- The reference of the config map. -/
def zoneRef (body : Members) : Ref := objectRef "v1" "ConfigMap" "zone" body

/-- The reference of the service. -/
def serviceRef (body : Members) : Ref := objectRef "v1" "Service" "dns" body

/-- A cluster that has both objects and takes no patches. -/
def zoneCluster : State where
  store := [
    (.ofRef (zoneRef []), .map zoneMembers),
    (.ofRef (serviceRef []), .map (serviceMembers []))]
  rules := [{ verb := .patch, refusal := ⟨.int 422, .text "Unprocessable Entity"⟩ }]

theorem builtOn_zoneAndService : builtOn zoneCluster .null (.text zoneAndService) =
    .ok [zoneRef zoneMembers, serviceRef (serviceMembers [.int 53, .int 80])] :=
  toOption_eq_some_iff.mp (by decide +kernel)

theorem builtOn_serviceAndZone : builtOn zoneCluster .null (.text serviceAndZone) =
    .ok [serviceRef (serviceMembers [.int 80, .int 53]).reverse, zoneRef zoneMembers.reverse] :=
  toOption_eq_some_iff.mp (by decide +kernel)

/-- The service on the wire, as the two manifests have it. -/
theorem rearranged_service : Patch.Rearranged false { type := some "V1Service" }
    (.map (serviceMembers [.int 53, .int 80])) (.map (serviceMembers [.int 80, .int 53])) := by
  refine @Patch.Rearranged.at_member false _ _ _ [_, _, _] [] "spec" (by decide +kernel) ?_
  refine @Patch.Rearranged.at_member false _ _ _ [] [] "ports" (by decide +kernel) ?_
  refine @Patch.Rearranged.of_perm false _ "port" _ _ (by decide +kernel) ?_ ?_ ?_ ?_
  · exact areKeyed_elementsAt (by decide) (by decide +kernel)
  · exact areKeyed_elementsAt (by decide) (by decide +kernel)
  · exact List.Perm.swap _ _ _
  · decide +kernel

/-- A forced update between the two manifests makes four calls and nothing else. -/
theorem update_keeps_rearranged_service :
    (({} : Client).update .null (.text zoneAndService) (.text serviceAndZone)
        { isForced := true }).on zoneCluster =
      (.ok [serviceRef (serviceMembers []), zoneRef zoneMembers],
        { zoneCluster with calls := [.get (.ofRef (serviceRef [])), .get (.ofRef (serviceRef [])),
            .get (.ofRef (zoneRef [])), .get (.ofRef (zoneRef []))] }) := by
  have before : Json.wire (.map (serviceMembers [.int 53, .int 80])) =
      .map (serviceMembers [.int 53, .int 80]) := by decide +kernel
  have after : Json.wire (.map (serviceMembers [.int 80, .int 53]).reverse) =
      .map (serviceMembers [.int 80, .int 53]) := by decide +kernel
  have found : Schema.lookupObject (.map (serviceMembers [.int 80, .int 53]).reverse) =
      .ok ⟨"", "Service", some "V1Service", .service, none⟩ := rfl
  refine update_keeps_rearranged {} .null (.text zoneAndService) (.text serviceAndZone)
    { isForced := true } zoneCluster builtOn_zoneAndService builtOn_serviceAndZone ?_ ?_ ?_ ?_
    ?_ rfl rfl
  · refine List.forall_mem_cons.mpr ⟨?_, List.forall_mem_cons.mpr ⟨?_, List.forall_mem_nil _⟩⟩
    · exact isPlain_objectRef (by decide +kernel) (by decide +kernel) rfl rfl
    · exact isPlain_objectRef (by decide +kernel) (by decide +kernel) rfl rfl
  · refine List.forall_mem_cons.mpr ⟨?_, List.forall_mem_cons.mpr ⟨?_, List.forall_mem_nil _⟩⟩
    · exact isPlain_objectRef (by decide +kernel) (by decide +kernel) rfl rfl
    · exact isPlain_objectRef (by decide +kernel) (by decide +kernel) rfl rfl
  · refine ⟨_, List.Perm.swap _ _ _, .cons ⟨?_, ?_⟩ (.cons ⟨?_, ?_⟩ .nil)⟩
    · decide +kernel
    · intro info lookup
      cases lookup.symm.trans found
      exact before ▸ after ▸ rearranged_service
    · decide +kernel
    · exact fun info _ => .equal (by decide +kernel)
  · exact List.forall_mem_cons.mpr ⟨rfl, List.forall_mem_cons.mpr ⟨rfl, List.forall_mem_nil _⟩⟩
  · rfl

/-- A stateful set with a template of a claim that has two conditions. -/
def statefulSet (first second : String) : String :=
  "apiVersion: apps/v1\nkind: StatefulSet\nmetadata:\n  name: store\nspec:\n" ++
    "  volumeClaimTemplates:\n  - status:\n      conditions:\n" ++
    "      - type: " ++ first ++ "\n      - type: " ++ second ++ "\n"

/-- The members of the stateful set. -/
def setMembers (conditions : List Value) : Members :=
  objectMembers "apps/v1" "StatefulSet" "store"
    [(.text "spec", .map [(.text "volumeClaimTemplates", .list [.map [
      (.text "status", .map [(.text "conditions", .list (elementsAt "type" conditions))])]])])]

/-- The reference of the stateful set. -/
def setRef (conditions : List Value) : Ref :=
  objectRef "apps/v1" "StatefulSet" "store" (setMembers conditions)

/-- A cluster that has the stateful set. -/
def setCluster : State where
  store := [(.ofRef (setRef []), (setRef []).body)]

theorem builtOn_statefulSet : builtOn setCluster .null (.text (statefulSet "Resizing" "Stuck")) =
    .ok [setRef [.text "Resizing", .text "Stuck"]] :=
  toOption_eq_some_iff.mp (by decide +kernel)

theorem builtOn_statefulSet_swapped :
    builtOn setCluster .null (.text (statefulSet "Stuck" "Resizing")) =
      .ok [setRef [.text "Stuck", .text "Resizing"]] :=
  toOption_eq_some_iff.mp (by decide +kernel)

/-- The conditions are merged by their types, but the templates around them are not merged. -/
theorem rearranged_statefulSet : Patch.Rearranged true { type := some "V1StatefulSet" }
    (.map (setMembers [.text "Resizing", .text "Stuck"]))
    (.map (setMembers [.text "Stuck", .text "Resizing"])) := by
  refine @Patch.Rearranged.at_member true _ _ _ [_, _, _] [] "spec" (by decide +kernel) ?_
  refine @Patch.Rearranged.at_member true _ _ _ [] [] "volumeClaimTemplates"
    (by decide +kernel) ?_
  refine .items rfl rfl fun i x y hx hy => ?_
  cases i with
  | succ i => cases hx
  | zero =>
    cases hx
    cases hy
    refine @Patch.Rearranged.at_member true _ _ _ [] [] "status" (by decide +kernel) ?_
    refine @Patch.Rearranged.at_member true _ _ _ [] [] "conditions" (by decide +kernel) ?_
    refine @Patch.Rearranged.of_perm true _ "type" _ _ (by decide +kernel) ?_ ?_ ?_ ?_
    · exact areKeyed_elementsAt (by decide) (by decide +kernel)
    · exact areKeyed_elementsAt (by decide) (by decide +kernel)
    · exact List.Perm.swap _ _ _
    · decide +kernel

/-- If conditions are put in another order inside of a template, then the templates are sent as a
whole, although nothing else differs: the second call is no get, and the object is written. -/
theorem update_sends_rearranged_templates :
    (∃ earlier targets, builtOn setCluster .null (.text (statefulSet "Resizing" "Stuck")) =
        .ok earlier ∧
      builtOn setCluster .null (.text (statefulSet "Stuck" "Resizing")) = .ok targets ∧
      (∀ ref ∈ earlier, ref.IsPlain) ∧ (∀ ref ∈ targets, ref.IsPlain) ∧
      earlier.AreRearranged true targets ∧
      (∀ ref ∈ targets, (setCluster.store.get? (.ofRef ref)).isSome) ∧
      Cluster.rulesAfterGets? (lookups targets) setCluster.rules = some []) ∧
    ((({} : Client).update .null (.text (statefulSet "Resizing" "Stuck"))
      (.text (statefulSet "Stuck" "Resizing")) {}).on setCluster).2.calls.map
        Cluster.Call.isGet = [true, false] ∧
    ((({} : Client).update .null (.text (statefulSet "Resizing" "Stuck"))
      (.text (statefulSet "Stuck" "Resizing")) {}).on setCluster).2.counter =
        setCluster.counter + 1 := by
  have wire : Json.wire (setRef [.text "Resizing", .text "Stuck"]).body =
      (setRef [.text "Resizing", .text "Stuck"]).body := by decide +kernel
  have wire' : Json.wire (setRef [.text "Stuck", .text "Resizing"]).body =
      (setRef [.text "Stuck", .text "Resizing"]).body := by decide +kernel
  have found : Schema.lookupObject (setRef [.text "Stuck", .text "Resizing"]).body =
      .ok ⟨"apps", "StatefulSet", some "V1StatefulSet", .selectedPods, some .matchLabels⟩ := rfl
  rw [on_update {} .null _ _ {} builtOn_statefulSet builtOn_statefulSet_swapped]
  refine ⟨⟨_, _, builtOn_statefulSet, builtOn_statefulSet_swapped, ?_, ?_, ?_, ?_, rfl⟩, ?_⟩
  · refine List.forall_mem_cons.mpr ⟨?_, List.forall_mem_nil _⟩
    exact isPlain_objectRef (by decide +kernel) (by decide +kernel) rfl rfl
  · refine List.forall_mem_cons.mpr ⟨?_, List.forall_mem_nil _⟩
    exact isPlain_objectRef (by decide +kernel) (by decide +kernel) rfl rfl
  · refine ⟨_, List.Perm.refl _, .cons ⟨by decide +kernel, fun info lookup => ?_⟩ .nil⟩
    cases lookup.symm.trans found
    rw [wire, wire']
    exact rearranged_statefulSet
  · exact List.forall_mem_cons.mpr ⟨rfl, List.forall_mem_nil _⟩
  · decide +kernel

end Client

end Reconciler

import Reconciler.Client.Create
import Reconciler.Proofs.Client.Restarting
import Reconciler.Proofs.Readiness.Refreshing
import Reconciler.Proofs.Value.Decidable
import Mathlib.Data.List.Forall2

/-!
# What a client returns is live

When objects have been created or updated, the client returns a reference for each of them. Its
body is then the object that the cluster stores, in whichever way the client came to it: what is
established at the turn of one reference stays true at the turns of the others, since these are
at other places, and a wait that follows only reads.

Nothing is said of clusters in which other clients act meanwhile.
-/

namespace Reconciler

open Cluster (State Key Store Call Called)

/-- Work that spares some places of the store. -/
def Contract.keeping (spared : Key → Prop) : Contract where
  allows s s' := s.IsQuiet →
    s'.IsQuiet ∧ ∀ key, spared key → s'.store.get? key = s.store.get? key
  fails _ := True
  refl _ quiet := ⟨quiet, fun _ _ => rfl⟩
  trans := by
    intro s t u first second quiet
    obtain ⟨quiet, here⟩ := first quiet
    obtain ⟨quiet, later⟩ := second quiet
    exact ⟨quiet, fun key hkey => (later key hkey).trans (here key hkey)⟩

theorem Ref.IsLiveOf.congr {sent target : Ref} {s t : State}
    (same : t.store.get? (.ofRef target) = s.store.get? (.ofRef target))
    (h : sent.IsLiveOf target s) : sent.IsLiveOf target t :=
  ⟨h.refreshed, same.trans h.stored⟩

namespace Client

open Session
open Contract (keeping)

/-! ### Turns at other places -/

section

variable {spared : Key → Prop} {target : Ref}

theorem keeping_mono {fewer : Key → Prop} (h : ∀ key, fewer key → spared key)
    {work : Session α} (meets : work.Meets (keeping spared)) : work.Meets (keeping fewer) := by
  apply meets.weaken
  · intro s t kept quiet
    obtain ⟨quiet, kept⟩ := kept quiet
    exact ⟨quiet, fun key hkey => kept key (h key hkey)⟩
  · exact fun _ _ => trivial

/-- A call spares the places that are not the one of its object. -/
theorem keeping_of_onlyAt (apart : ∀ key, spared key → (Key.ofRef target).same key = false)
    {call : Call} {writes : Store → Store → Prop} {s s' : State}
    (h : Called call writes s s') (there : (onlyAt (.ofRef target)).allows s s') :
    (keeping spared).allows s s' := by
  intro quiet
  refine ⟨fun changes hmem => quiet changes (h.ticks ▸ hmem), fun key hkey => ?_⟩
  exact there key (apart key hkey)

theorem permits_keeping (apart : ∀ key, spared key → (Key.ofRef target).same key = false) :
    (keeping spared).Permits target where
  get s := keeping_of_onlyAt apart (Cluster.called_get _ s) ((permits_onlyAt target).get s)
  create body s := keeping_of_onlyAt apart (Cluster.called_create _ body s)
    ((permits_onlyAt target).create body s)
  fails _ := trivial

theorem permitsWrites_keeping
    (apart : ∀ key, spared key → (Key.ofRef target).same key = false) :
    (keeping spared).PermitsWrites target where
  patch body contentType s := keeping_of_onlyAt apart (Cluster.called_patch _ body contentType s)
    ((permitsWrites_onlyAt target).patch body contentType s)
  delete propagation s := keeping_of_onlyAt apart (Cluster.called_delete _ propagation s)
    ((permitsWrites_onlyAt target).delete propagation s)

end

/-- What the visit of a reference establishes about its place is still true when all others have
been visited. -/
theorem forall₂_of_on_visit {act : Ref → Session α} (Holds : Ref → α → State → Prop)
    (established : ∀ ref s a s', (act ref).on s = (.ok a, s') → Holds ref a s')
    (stable : ∀ ref a s t, t.store.get? (.ofRef ref) = s.store.get? (.ofRef ref) →
      Holds ref a s → Holds ref a t)
    (confined : ∀ ref, (act ref).Meets (keeping fun key => (Key.ofRef ref).same key = false))
    {refs : RefSet} (distinct : Manifest.Distinct refs) {s s' : State} (quiet : s.IsQuiet)
    {found : List α} (h : (visit act refs).on s = (.ok found, s')) :
    s'.IsQuiet ∧ List.Forall₂ (fun ref a => Holds ref a s') refs found := by
  induction refs generalizing s found with
  | nil =>
    cases h
    exact ⟨quiet, .nil⟩
  | cons ref rest ih =>
    obtain ⟨apart, distinct⟩ := List.pairwise_cons.mp distinct
    obtain ⟨a, s₁, hact, h⟩ := on_bind_eq_ok.mp h
    obtain ⟨more, s₂, hrest, h⟩ := on_bind_eq_ok.mp h
    cases h
    have quiet₁ : s₁.IsQuiet := by
      have first := ((confined ref) s).1 quiet
      rw [hact] at first
      exact first.1
    obtain ⟨quiet₂, others⟩ := ih distinct quiet₁ hrest
    refine ⟨quiet₂, .cons ?_ others⟩
    -- The later turns are at places that are not the one of the first reference.
    have spared : (visit act rest).Meets (keeping fun key => key = .ofRef ref) := by
      apply meets_visit
      intro other hmem
      apply keeping_mono _ (confined other)
      rintro key rfl
      rw [Key.same_comm]
      refine Bool.eq_false_iff.mpr fun same => ?_
      exact Bool.eq_false_iff.mp (apart other hmem) (Key.sameIdentity_of_same same)
    have later := (spared s₁).1 quiet₁
    rw [hrest] at later
    exact stable ref a s₁ _ (later.2 _ rfl) (established ref s a s₁ hact)

/-- References that were refreshed one by one are live and name the same objects. -/
theorem areLive_of_forall₂ {refs found : RefSet} {s : State}
    (h : List.Forall₂ (fun ref sent => sent.IsLiveOf ref s) refs found) :
    found.map Ref.bare = refs.map Ref.bare ∧ found.AreLive s.store := by
  induction h with
  | nil => exact ⟨rfl, List.forall_mem_nil _⟩
  | cons first _ ih =>
    obtain ⟨same, live⟩ := ih
    obtain ⟨refreshed, stored⟩ := first
    refine ⟨?_, List.forall_mem_cons.mpr ⟨?_, live⟩⟩
    · rw [List.map_cons, List.map_cons, same, refreshed]
      rfl
    · rw [refreshed]
      exact stored

theorem areLive_of_on_waitIf {client : Client} {isAsked : Bool} {refs found : RefSet}
    {timeout : Value} {s s' : State} (quiet : s.IsQuiet) (live : refs.AreLive s.store)
    (h : (client.waitIf isAsked refs timeout).on s = (.ok found, s')) :
    found.map Ref.bare = refs.map Ref.bare ∧ found.AreLive s'.store := by
  have store := (client.meets_waitIf isAsked refs timeout s).1.2 quiet
  rw [h] at store
  rw [store.2]
  rw [waitIf] at h
  split at h
  · exact Readiness.areLive_of_on_wait quiet live h
  · cases h
    exact ⟨rfl, live⟩

/-! ### Creating -/

variable {client : Client} {s s' : State} {sent : RefSet}

/-- The references of created objects are live. -/
theorem areLive_of_on_create {space timeout : Value} {source : Manifest.Source}
    {isWaiting : Bool} (quiet : s.IsQuiet)
    (h : (client.create space source isWaiting timeout).on s = (.ok sent, s')) :
    ∃ refs, builtOn s space source = .ok refs ∧ sent.map Ref.bare = refs.map Ref.bare ∧
      sent.AreLive s'.store := by
  obtain ⟨refs, s₁, hbuild, hcreate⟩ := on_bind_eq_ok.mp h
  obtain ⟨built, -, rfl⟩ := on_buildSome_eq_ok.mp hbuild
  obtain ⟨created, s₂, hvisit, hwait⟩ := on_bind_eq_ok.mp hcreate
  obtain ⟨quiet₂, live⟩ := forall₂_of_on_visit (fun ref sent s => sent.IsLiveOf ref s)
    (fun ref s sent s' h => isLiveOf_createObject h)
    (fun ref sent s t same live => live.congr same)
    (fun ref => meets_createObject (permits_keeping fun _ apart => apart) _)
    (Manifest.distinct_of_build built) quiet hvisit
  obtain ⟨same, live⟩ := areLive_of_forall₂ live
  obtain ⟨same', live'⟩ := areLive_of_on_waitIf quiet₂ live hwait
  exact ⟨refs, built, same'.trans same, live'⟩

/-! ### Updating -/

variable {options : UpdateOptions} {earlier targets : RefSet}

/-- A target without a problem has been created, patched, replaced or read again. -/
theorem isLiveOf_reconcile (keepsPods : options.restartsPods = false) {target sent : Ref}
    (h : (client.reconcile options earlier target).on s = (.ok (sent, none), s')) :
    sent.IsLiveOf target s' := by
  obtain ⟨reply, s₁, -, h⟩ := on_bind_eq_ok.mp h
  cases reply with
  | error refusal =>
    rw [settle] at h
    split at h
    · obtain ⟨created, s₂, hcreate, h⟩ := on_bind_eq_ok.mp h
      cases h
      exact isLiveOf_createObject hcreate
    · cases h
  | ok body =>
    rw [settle] at h
    split at h
    · cases h
    · obtain ⟨outcome, s₂, hupdate, h⟩ := on_bind_eq_ok.mp h
      cases outcome with
      | error problem => cases h
      | ok updated =>
        cases h
        have brought := on_recorded_eq_ok hupdate
        rw [updateObject_eq, keepsPods] at brought
        obtain ⟨brought, s₃, hbring, h⟩ := on_bind_eq_ok.mp brought
        cases h
        exact isLiveOf_bring hbring

theorem reconcile_keeping (client : Client) (keepsPods : options.restartsPods = false)
    (earlier : RefSet) (target : Ref) : (client.reconcile options earlier target).Meets
      (keeping fun key => (Key.ofRef target).same key = false) := by
  have writes : (keeping fun key => (Key.ofRef target).same key = false).PermitsWrites target :=
    permitsWrites_keeping fun _ apart => apart
  have permits : (keeping fun key => (Key.ofRef target).same key = false).Permits target :=
    permits_keeping fun _ apart => apart
  refine meets_reconcile permits client options earlier fun old _ => ?_
  exact meets_updateObject_of_keepsPods permits writes client keepsPods old.body
    fun _ _ => trivial

/-- An update that returns has had no problem, and what it returns has been waited for. -/
theorem on_conclude_eq_ok {stale : RefSet} {outcomes : List (Ref × Option Problem)}
    (h : (client.conclude options stale outcomes).on s = (.ok sent, s')) :
    outcomes.filterMap (·.2) = [] ∧ ∃ s₁, (client.deleteAll stale).on s = (.ok (), s₁) ∧
      (client.waitIf options.isWaiting (outcomes.map (·.1)) options.timeout).on s₁ =
        (.ok sent, s') := by
  rw [conclude] at h
  split at h
  · cases h
  · obtain ⟨⟨⟩, s₁, hdelete, h⟩ := on_bind_eq_ok.mp h
    split at h
    · rename_i clear
      exact ⟨List.isEmpty_iff.mp clear, s₁, hdelete, h⟩
    · cases h

theorem forall₂_of_no_problems {outcomes : List (Ref × Option Problem)}
    (h : List.Forall₂ (fun target outcome => outcome.2 = none → outcome.1.IsLiveOf target s)
      targets outcomes) (clear : outcomes.filterMap (·.2) = []) :
    List.Forall₂ (fun target sent => sent.IsLiveOf target s) targets (outcomes.map (·.1)) := by
  induction h with
  | nil => exact .nil
  | cons first _ ih =>
    rw [List.filterMap_eq_nil_iff, List.forall_mem_cons, ← List.filterMap_eq_nil_iff] at clear
    exact .cons (first clear.1) (ih clear.2)

/-- What only the earlier manifest has is not at the place of a target. -/
theorem deleteAll_keeping (client : Client) (earlier targets : RefSet) :
    (client.deleteAll (earlier.difference targets)).Meets
      (keeping fun key => ∃ target ∈ targets, Key.ofRef target = key) := by
  apply meets_deleteAll
  intro ref hmem
  apply (permitsWrites_keeping _).delete
  rintro key ⟨target, htarget, rfl⟩
  obtain ⟨-, lacking⟩ := (RefSet.mem_difference ..).mp hmem
  refine Bool.eq_false_iff.mpr fun same => Bool.eq_false_iff.mp lacking ?_
  rw [Key.same_comm] at same
  exact (RefSet.contains_iff _ _).mpr ⟨target, htarget, Key.sameIdentity_of_same same⟩

/-- References stay live while the places of their objects are kept. -/
theorem areLive_of_kept {found : RefSet} (same : found.map Ref.bare = targets.map Ref.bare)
    (kept : ∀ key, (∃ target ∈ targets, Key.ofRef target = key) →
      s'.store.get? key = s.store.get? key) (live : found.AreLive s.store) :
    found.AreLive s'.store := by
  intro ref hmem
  have named : ref.bare ∈ targets.map Ref.bare := same ▸ List.mem_map_of_mem hmem
  obtain ⟨target, htarget, heq⟩ := List.mem_map.mp named
  have place : Key.ofRef target.bare = Key.ofRef ref.bare := congrArg Key.ofRef heq
  exact (kept _ ⟨target, htarget, place⟩).trans (live ref hmem)

/-- The references of updated objects are live, also after the deletions. -/
theorem areLive_of_on_updateRefs (keepsPods : options.restartsPods = false)
    (distinct : Manifest.Distinct targets) (quiet : s.IsQuiet)
    (h : (client.updateRefs options earlier targets).on s = (.ok sent, s')) :
    sent.map Ref.bare = targets.map Ref.bare ∧ sent.AreLive s'.store := by
  obtain ⟨outcomes, s₁, hvisit, h⟩ := on_bind_eq_ok.mp h
  obtain ⟨quiet₁, outcome⟩ := forall₂_of_on_visit
    (fun target outcome s => outcome.2 = none → outcome.1.IsLiveOf target s)
    (by
      rintro target s ⟨sent, problem⟩ s' h rfl
      exact isLiveOf_reconcile keepsPods h)
    (fun target outcome s t same live clear => (live clear).congr same)
    (reconcile_keeping client keepsPods earlier) distinct quiet hvisit
  obtain ⟨clear, s₂, hdelete, h⟩ := on_conclude_eq_ok h
  obtain ⟨same, live⟩ := areLive_of_forall₂ (forall₂_of_no_problems outcome clear)
  have deleted := (deleteAll_keeping client earlier targets s₁).1 quiet₁
  rw [hdelete] at deleted
  obtain ⟨quiet₂, kept⟩ := deleted
  obtain ⟨same', live'⟩ := areLive_of_on_waitIf quiet₂ (areLive_of_kept same kept live) h
  exact ⟨same'.trans same, live'⟩

/-- What is returned is live. If the objects of a manifest have been created, or updated without
restarting their pods, then the references that come back name the objects of the manifest in
order, and the body of each is what the cluster now stores under its kind, namespace and name.
This holds whatever the rules refuse, in whichever way each object was brought about and whether
or not a wait followed. -/
theorem returned_refs_are_live (client : Client) (space : Value) (s s' : State) (sent : RefSet)
    (quiet : s.IsQuiet) :
    (∀ source isWaiting timeout,
      (client.create space source isWaiting timeout).on s = (.ok sent, s') →
      ∃ refs, builtOn s space source = .ok refs ∧ sent.map Ref.bare = refs.map Ref.bare ∧
        ∀ ref ∈ sent, s'.store.get? (.ofRef ref) = some ref.body) ∧
    (∀ original target (options : UpdateOptions), options.restartsPods = false →
      (client.update space original target options).on s = (.ok sent, s') →
      ∃ refs, builtOn s space target = .ok refs ∧ sent.map Ref.bare = refs.map Ref.bare ∧
        ∀ ref ∈ sent, s'.store.get? (.ofRef ref) = some ref.body) := by
  constructor
  · intro source isWaiting timeout h
    exact areLive_of_on_create quiet h
  · intro original target options keepsPods h
    obtain ⟨first, hfirst, first_iff⟩ := on_buildForUpdate space original s
    obtain ⟨second, hsecond, second_iff⟩ := on_buildForUpdate space target s
    obtain ⟨earlier, s₁, hearlier, h⟩ := on_bind_eq_ok.mp h
    obtain ⟨targets, s₂, htargets, h⟩ := on_bind_eq_ok.mp h
    cases hfirst.symm.trans hearlier
    cases hsecond.symm.trans htargets
    have built := (second_iff targets).mp rfl
    exact ⟨targets, built, areLive_of_on_updateRefs keepsPods (Manifest.distinct_of_build built)
      quiet h⟩

/-- A document of a manifest: a config map of some name that has data. -/
def dataDocument (name : String) : String := configDocument name ++ "data:\n  mode: edited\n"

/-- A manifest with an edited config map, one that is as before and a new one. -/
def editedConfigs : String :=
  dataDocument "first" ++ configDocument "second" ++ configDocument "third"

/-- The reference of a config map of some name. -/
def configRef (name : String) (more : Members) : Ref where
  name := .text name
  space := .text "default"
  kind := .text "ConfigMap"
  apiVersion := .text "v1"
  body := .map ([(.text "apiVersion", .text "v1"), (.text "kind", .text "ConfigMap"),
    (.text "metadata", .map [(.text "name", .text name), (.text "namespace", .text "default")])] ++
    more)

/-- The data of the edited config map. -/
def editedData : Members := [(.text "data", .map [(.text "mode", .text "edited")])]

/-- The first config map cannot be patched. -/
def patchOfFirst : Cluster.Rule where
  verb := .patch
  name := some (.text "first")
  refusal := ⟨.int 422, .text "Unprocessable Entity"⟩

theorem builtOn_twoConfigs {s : State} (h : s.discovery = Cluster.discovery (.text "default")) :
    builtOn s .null (.text twoConfigs) = .ok [configRef "first" [], configRef "second" []] := by
  rw [builtOn, h]
  exact toOption_eq_some_iff.mp (by decide +kernel)

theorem builtOn_editedConfigs : builtOn (configCluster [patchOfFirst]) .null
    (.text editedConfigs) =
      .ok [configRef "first" editedData, configRef "second" [], configRef "third" []] :=
  toOption_eq_some_iff.mp (by decide +kernel)

/-- Whether a run gives a number of references. -/
def givesRefs (count : Nat) : Except Failure RefSet × State → Bool
  | (.ok sent, _) => sent.length == count
  | (.error _, _) => false

theorem exists_of_givesRefs {count : Nat} {run : Except Failure RefSet × State}
    (h : givesRefs count run) : ∃ sent s', run = (.ok sent, s') ∧ sent.length = count := by
  obtain ⟨result, s'⟩ := run
  cases result with
  | error failure => cases h
  | ok sent => exact ⟨sent, s', rfl, eq_of_beq h⟩

/-- Two config maps are created and waited for. Of three others one is replaced, one read again
and one created. -/
theorem returned_configs_are_live :
    (∃ sent s', (({} : Client).create .null (.text twoConfigs) true .null).on {} =
      (.ok sent, s') ∧ sent.length = 2 ∧
      ∀ ref ∈ sent, s'.store.get? (.ofRef ref) = some ref.body) ∧
    ∃ sent s', (({} : Client).update .null (.text twoConfigs) (.text editedConfigs)
        { isForced := true }).on (configCluster [patchOfFirst]) = (.ok sent, s') ∧
      sent.length = 3 ∧ ∀ ref ∈ sent, s'.store.get? (.ofRef ref) = some ref.body := by
  constructor
  · have created : givesRefs 2
        ((({} : Client).create .null (.text twoConfigs) true .null).on {}) := by
      rw [create, on_bind, on_buildSome_eq_ok.mpr ⟨builtOn_twoConfigs rfl, nofun, rfl⟩]
      decide +kernel
    obtain ⟨sent, s', run, two⟩ := exists_of_givesRefs created
    obtain ⟨refs, -, -, live⟩ := (returned_refs_are_live {} .null {} s' sent nofun).1 _ _ _ run
    exact ⟨sent, s', run, two, live⟩
  · have updated : givesRefs 3 ((({} : Client).update .null (.text twoConfigs)
        (.text editedConfigs) { isForced := true }).on (configCluster [patchOfFirst])) := by
      rw [on_update {} .null _ _ _ (builtOn_twoConfigs rfl) builtOn_editedConfigs]
      decide +kernel
    obtain ⟨sent, s', run, three⟩ := exists_of_givesRefs updated
    obtain ⟨refs, -, -, live⟩ :=
      (returned_refs_are_live {} .null (configCluster [patchOfFirst]) s' sent nofun).2 _ _ _ rfl run
    exact ⟨sent, s', run, three, live⟩

end Client

end Reconciler

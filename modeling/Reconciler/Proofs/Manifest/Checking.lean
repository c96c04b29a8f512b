import Reconciler.Proofs.Manifest.Building
import Reconciler.Proofs.Manifest.Drafting

/-!
# Strict builds

A strict build differs from another one in that it looks for undeclared fields in each object that
it has bound, and goes on without the object if it finds some. Both go through the same objects,
and what they have written at each turn is the same, but a strict build may have fewer references
by then, so it meets no object twice that the other one does not.

What is found at the turn of an object is what the object had undeclared when it was loaded. The
namespaces that have been written by then do not count, unless they were written to metadata that
stands in the object a second time. Main statement: when a strict build succeeds, and what it says
when it does not.
-/

namespace Reconciler.Manifest

open Reconciler.Tree

/-- No field of an object is undeclared by the model of its kind. -/
def IsDeclared (object : Value) : Prop :=
  ∃ info, Schema.lookupObject object = .ok info ∧
    Schema.unknownFields Schema.builtin info.model "" object = []

/-- What a strict build says of an object if it has undeclared fields: it names the object and all
of these fields. -/
def complaint? (object : Value) : Option Undeclared :=
  match undeclaredPaths object with
  | .ok (path :: paths) =>
    some ⟨object.field "kind", Cluster.metadataField object "name", path :: paths⟩
  | _ => none

/-- The API version and the kind of an object are text, and its name is no collection. -/
def hasTextNames (object : Value) : Bool :=
  (object.field "apiVersion").isTextIfPresent && (object.field "kind").isTextIfPresent &&
    (Cluster.metadataField object "name").isLeaf

/-- An object is seen at its turn as it was loaded: its names are text, and if its kind has a model,
then no metadata to which a namespace is written stands in it, other than as its own. -/
structure IsSeenAsLoaded (discovery : Discovery) (space : Value) (writes : Writes)
    (objects : List Tree) (object : Tree) : Prop where
  names : hasTextNames (object.value writes)
  apart : ∀ info, Schema.lookupObject (object.value writes) = .ok info → info.isSupported →
    ∀ write ∈ spaceWrites discovery space writes objects, ¬(detached object).Carries write.mark

/-- All objects of a manifest are seen at their turn as they were loaded. -/
def AreSeenAsLoaded (discovery : Discovery) (space : Value) (source : Source) : Prop :=
  ∀ objects writes, loadTrees source = .ok (objects, writes) →
    ∀ object ∈ objects, IsSeenAsLoaded discovery space writes objects object

variable {discovery : Discovery} {space : Value} {writes writes' later : Writes}
  {object : Tree} {objects rest : List Tree} {draft : Draft} {progress other next last : Progress}

/-! ### Undeclared fields -/

theorem undeclaredPaths_eq_nil_iff {object : Value} :
    undeclaredPaths object = .ok [] ↔ IsDeclared object := by
  rw [undeclaredPaths, Reconciler.bind_eq_ok]
  exact exists_congr fun info => and_congr_right fun _ => pathTexts_eq_nil_iff

theorem complaint?_of_paths {object : Value} {paths : List String}
    (h : undeclaredPaths object = .ok paths) : complaint? object =
      if paths.isEmpty then none
      else some ⟨object.field "kind", Cluster.metadataField object "name", paths⟩ := by
  rw [complaint?, h]
  cases paths <;> rfl

/-! ### Objects at their turn -/

/-- Namespaces have been written, and to the metadata of objects in namespaces only. -/
structure AreSharedSpaces (discovery : Discovery) (space : Value) (writes : Writes)
    (objects : List Tree) (later : Writes) : Prop where
  areSpaces : AreSpaces later
  shared : ∀ write ∈ later, ∃ other ∈ spaceWrites discovery space writes objects,
    other.mark = write.mark

/-- What an object has written after its turn is a namespace of the kind that it had when it was
loaded. -/
theorem IsDraftOf.areSharedSpaces (h : IsDraftOf discovery (writes ++ later) object draft writes')
    (shared : AreSharedSpaces discovery space writes objects later) (isMap : object.isMap)
    (hobject : object ∈ objects) (names : hasTextNames (object.value writes)) :
    ∃ all, AreSharedSpaces discovery space writes objects all ∧ writes' = writes ++ all := by
  simp only [hasTextNames, Bool.and_eq_true] at names
  obtain ⟨⟨version, kind⟩, -⟩ := names
  obtain ⟨own, rfl, hown⟩ := h.exists_own
  refine ⟨later ++ own, ⟨?_, ?_⟩, List.append_assoc ..⟩
  · exact fun write hmem => (List.mem_append.mp hmem).elim (shared.areSpaces write)
      fun hmem => (hown write hmem).1
  · intro write hmem
    rcases List.mem_append.mp hmem with hmem | hmem
    · exact shared.shared write hmem
    · obtain ⟨-, marked, hscope⟩ := hown write hmem
      rw [metadataOf_append shared.areSpaces] at marked
      rw [get_of_areSpaces isMap shared.areSpaces (by decide)
          (Value.isLeaf_of_isTextIfPresent version),
        get_of_areSpaces isMap shared.areSpaces (by decide)
          (Value.isLeaf_of_isTextIfPresent kind)] at hscope
      have namespaced : isNamespaced discovery (object.value writes) := by
        rw [isNamespaced, hscope]
        rfl
      refine ⟨⟨write.mark, "namespace", spaceOf discovery space (object.value writes)⟩,
        List.mem_filterMap.mpr ⟨object, hobject, ?_⟩, rfl⟩
      rw [sharedSpace?, if_pos namespaced, (h.metadata_found shared.areSpaces).1, Option.bind_some,
        marked, Option.map_some]

/-- The value of a draft has the fields undeclared that the value of its object has then. -/
theorem IsDraftOf.undeclaredPaths_now (h : IsDraftOf discovery writes object draft writes')
    (written : ∀ write ∈ writes', write.name ≠ "metadata") {mark shared : Option Nat}
    {members own : List (Value × Tree)} (hmap : object = .map mark members)
    (found : find? members "metadata" = some (.map shared own))
    (hmetadata : metadataOf writes object = .map shared own) :
    undeclaredPaths (draft.object.value writes') = undeclaredPaths (object.value writes') := by
  rcases h.placed with ⟨heq, rfl⟩ | ⟨-, space, hplaced⟩
  · rw [heq]
  · rw [hmetadata] at hplaced
    have last : ∀ mark, shared = some mark → writes'.last? mark "namespace" = some space := by
      rintro mark rfl
      rw [show writes' = _ from congrArg Prod.snd hplaced, writeSpace_eq rfl space writes writes]
      dsimp only [mark?, Option.map_some, Option.toList_some]
      rw [Writes.last?_concat, if_pos (by simp)]
    have isMap : ((object.value writes').field "metadata").isMap := by
      have there : object.member? writes' "metadata" = some (.map shared own) := by
        rw [hmap, member?_eq_find? written, found]
      rw [field_metadata (by rw [hmap]; rfl) there]
      exact isMap_value rfl writes'
    rw [show draft.object = _ from congrArg Prod.fst hplaced, hmap,
      value_writeSpace written found space last writes, ← hmap]
    exact undeclaredPaths_writeSpace isMap space

/-- An object has the same fields undeclared before and after namespaces have been written to shared
metadata, if none of this stands in the object a second time. -/
theorem undeclaredPaths_append {mark shared : Option Nat} {members own : List (Value × Tree)}
    (written : ∀ write ∈ writes, write.name ≠ "metadata") (spaces : AreSpaces later)
    (found : find? members "metadata" = some (.map shared own))
    (apart : ∀ write ∈ later, ¬(detached (.map mark members)).Carries write.mark) :
    undeclaredPaths ((Tree.map mark members).value (writes ++ later)) =
      undeclaredPaths ((Tree.map mark members).value writes) := by
  have isMap (all : Writes) (h : ∀ write ∈ all, write.name ≠ "metadata") :
      (((Tree.map mark members).value all).field "metadata").isMap := by
    have there : (Tree.map mark members).member? all "metadata" = some (.map shared own) := by
      rw [member?_eq_find? h, found]
    rw [field_metadata rfl there]
    exact isMap_value rfl all
  have writtenAll : ∀ write ∈ writes ++ later, write.name ≠ "metadata" := fun write hmem =>
    (List.mem_append.mp hmem).elim (written write) fun hlater => spaces write hlater ▸ (by decide)
  rw [← undeclaredPaths_writeSpace (isMap _ writtenAll) .null,
    writeMetadata_append written spaces found apart .null,
    undeclaredPaths_writeSpace (isMap _ written) .null]

/-- What is found undeclared at the turn of an object is what was when it was loaded. -/
theorem IsDraftOf.undeclaredPaths_eq
    (h : IsDraftOf discovery (writes ++ later) object draft writes')
    (shared : AreSharedSpaces discovery space writes objects later)
    (loaded : AreLoaded objects writes) (hobject : object ∈ objects)
    (seen : IsSeenAsLoaded discovery space writes objects object) :
    undeclaredPaths (draft.object.value writes') = undeclaredPaths (object.value writes) := by
  have isMap := loaded.isMap object hobject
  have names := seen.names
  simp only [hasTextNames, Bool.and_eq_true] at names
  have same := h.lookupObject shared.areSpaces isMap
    (Value.isLeaf_of_isTextIfPresent names.1.1) (Value.isLeaf_of_isTextIfPresent names.1.2)
  cases hinfo : Schema.lookupObject (object.value writes) with
  | error fault =>
    rw [undeclaredPaths, undeclaredPaths, same, hinfo]
    rfl
  | ok info =>
    cases hmodel : info.model with
    | none =>
      rw [undeclaredPaths, undeclaredPaths, same, hinfo]
      change pathTexts (Schema.unknownFields Schema.builtin info.model _ _) =
        pathTexts (Schema.unknownFields Schema.builtin info.model _ _)
      rw [hmodel, Schema.unknownFields_none, Schema.unknownFields_none]
    | some model =>
      have supported : info.isSupported := by
        rw [Schema.KindInfo.isSupported, hmodel]
        rfl
      obtain ⟨all, allShared, rfl⟩ := h.areSharedSpaces shared isMap hobject seen.names
      obtain ⟨member, metadataMap⟩ := h.metadata_found shared.areSpaces
      have now := metadataOf_append shared.areSpaces writes object
      generalize metadataOf writes object = metadata at member metadataMap now
      cases object with
      | map mark members =>
        cases metadata with
        | map own parts =>
          rw [member?_eq_find? loaded.written] at member
          have written : ∀ write ∈ writes ++ all, write.name ≠ "metadata" := fun write hmem =>
            (List.mem_append.mp hmem).elim (loaded.written write)
              fun hall => allShared.areSpaces write hall ▸ (by decide)
          rw [h.undeclaredPaths_now written rfl member now]
          refine undeclaredPaths_append loaded.written allShared.areSpaces member ?_
          intro write hmem
          obtain ⟨other, hother, hmark⟩ := allShared.shared write hmem
          rw [← hmark]
          exact seen.apart info hinfo supported other hother
        | _ => cases metadataMap
      | _ => cases isMap

/-- What a strict build says of an object at its turn is what follows from what it was when it was
loaded. -/
theorem IsDraftOf.complaint?_eq
    (h : IsDraftOf discovery (writes ++ later) object draft writes')
    (shared : AreSharedSpaces discovery space writes objects later) (isMap : object.isMap)
    (names : hasTextNames (object.value writes)) {paths : List String}
    (hpaths : undeclaredPaths (object.value writes) = .ok paths) :
    complaint? (object.value writes) =
      if paths.isEmpty then none else some ⟨draft.kind, draft.name, paths⟩ := by
  simp only [hasTextNames, Bool.and_eq_true] at names
  obtain ⟨⟨-, kind⟩, name⟩ := names
  obtain ⟨member, metadataMap⟩ := h.metadata_found shared.areSpaces
  have draftKind := h.draftKind
  rw [get_of_areSpaces isMap shared.areSpaces (by decide)
    (Value.isLeaf_of_isTextIfPresent kind)] at draftKind
  have draftName := h.draftName
  rw [metadataField_eq isMap member] at name
  rw [metadataOf_append shared.areSpaces,
    get_of_areSpaces metadataMap shared.areSpaces (by decide) name,
    ← metadataField_eq isMap member] at draftName
  rw [complaint?_of_paths hpaths, draftKind, draftName]

/-! ### From strict builds to others -/

theorem undeclared_take {paths : List String} (h : progress.take draft paths = .ok next) :
    next.undeclared = progress.undeclared ∧ paths = [] ∨
      next.undeclared = progress.undeclared ++ [⟨draft.kind, draft.name, paths⟩] ∧ paths ≠ [] := by
  rw [Progress.take] at h
  split at h
  · rename_i none
    exact .inl ⟨by rw [(add_eq_ok_iff.mp h).2], List.isEmpty_iff.mp none⟩
  · rename_i some
    cases h
    exact .inr ⟨rfl, fun none => some (List.isEmpty_iff.mpr none)⟩

/-- A strict step after which nothing is undeclared is one that has found nothing. -/
theorem step_strict_of_undeclared_nil
    (h : progress.step true discovery space object = .ok next) (none : next.undeclared = []) :
    progress.undeclared = [] ∧ progress.step false discovery space object = .ok next ∧
      ∃ draft, bind discovery space progress.writes object = .ok (draft, next.writes) ∧
        undeclaredPaths (draft.object.value next.writes) = .ok [] := by
  obtain ⟨draft, paths, hbind, hfound, htake⟩ := exists_draft_of_step h
  rcases undeclared_take htake with ⟨kept, rfl⟩ | ⟨grown, -⟩
  · have hpaths : undeclaredPaths (draft.object.value next.writes) = .ok [] :=
      liftFault_eq_ok.mp hfound
    refine ⟨kept.symm.trans none, ?_, draft, hbind, hpaths⟩
    rw [step_eq, hbind]
    exact htake
  · rw [none] at grown
    exact absurd grown.symm (List.append_ne_nil_of_right_ne_nil _ (List.cons_ne_nil _ _))

/-- A strict build that finds nothing undeclared goes the way of the other one. -/
theorem steps_lenient_of_strict
    (h : rest.foldlM (Progress.step true discovery space) progress = .ok last)
    (none : last.undeclared = []) : progress.undeclared = [] ∧
      rest.foldlM (Progress.step false discovery space) progress = .ok last := by
  induction rest generalizing progress with
  | nil =>
    cases h
    exact ⟨none, rfl⟩
  | cons object rest ih =>
    rw [List.foldlM_cons] at h
    obtain ⟨next, hstep, h⟩ := Reconciler.bind_eq_ok.mp h
    obtain ⟨noneNext, hrest⟩ := ih h
    obtain ⟨noneHere, hlenient, -⟩ := step_strict_of_undeclared_nil hstep noneNext
    refine ⟨noneHere, ?_⟩
    rw [List.foldlM_cons, hlenient]
    exact hrest

/-- The namespaces that have been written after a step are those of objects in namespaces. -/
theorem areSharedSpaces_step {isStrict : Bool}
    (h : progress.step isStrict discovery space object = .ok next)
    (hwrites : progress.writes = writes ++ later)
    (shared : AreSharedSpaces discovery space writes objects later) (isMap : object.isMap)
    (hobject : object ∈ objects) (names : hasTextNames (object.value writes)) :
    ∃ all, AreSharedSpaces discovery space writes objects all ∧ next.writes = writes ++ all := by
  obtain ⟨draft, -, hbind, -⟩ := exists_draft_of_step h
  rw [hwrites] at hbind
  exact (isDraftOf_bind hbind).areSharedSpaces shared isMap hobject names

/-- A strict build that finds nothing undeclared is one of objects without undeclared fields. -/
theorem isDeclared_of_steps (loaded : AreLoaded objects writes)
    (seen : ∀ object ∈ objects, IsSeenAsLoaded discovery space writes objects object)
    (within : rest ⊆ objects) (hwrites : progress.writes = writes ++ later)
    (shared : AreSharedSpaces discovery space writes objects later)
    (h : rest.foldlM (Progress.step true discovery space) progress = .ok last)
    (none : last.undeclared = []) : ∀ object ∈ rest, IsDeclared (object.value writes) := by
  induction rest generalizing progress later with
  | nil => exact List.forall_mem_nil _
  | cons object rest ih =>
    obtain ⟨hobject, within⟩ := List.cons_subset.mp within
    rw [List.foldlM_cons] at h
    obtain ⟨next, hstep, h⟩ := Reconciler.bind_eq_ok.mp h
    obtain ⟨all, allShared, hnext⟩ := areSharedSpaces_step hstep hwrites shared
      (loaded.isMap object hobject) hobject (seen object hobject).names
    obtain ⟨-, -, draft, hbind, hpaths⟩ :=
      step_strict_of_undeclared_nil hstep (steps_lenient_of_strict h none).1
    rw [hwrites] at hbind
    rw [(isDraftOf_bind hbind).undeclaredPaths_eq shared loaded hobject (seen object hobject)]
      at hpaths
    exact List.forall_mem_cons.mpr
      ⟨undeclaredPaths_eq_nil_iff.mp hpaths, ih within hnext allShared h⟩

/-! ### From other builds to strict ones -/

/-- What a strict build has built by the time that another one has reached some stage. -/
structure IsBehind (strict other : Progress) : Prop where
  writes : strict.writes = other.writes
  drafts : strict.drafts.Sublist other.drafts

/-- A strict step goes on where another one does, perhaps without the object. -/
theorem exists_step_strict (loaded : AreLoaded objects writes) (hobject : object ∈ objects)
    (seen : IsSeenAsLoaded discovery space writes objects object)
    (hwrites : progress.writes = writes ++ later)
    (shared : AreSharedSpaces discovery space writes objects later) {paths : List String}
    (hpaths : undeclaredPaths (object.value writes) = .ok paths) {strict : Progress}
    (behind : IsBehind strict progress)
    (h : progress.step false discovery space object = .ok next) :
    ∃ strictNext, strict.step true discovery space object = .ok strictNext ∧
      IsBehind strictNext next ∧ strictNext.undeclared =
        strict.undeclared ++ (complaint? (object.value writes)).toList := by
  obtain ⟨draft, writes', hbind, fresh, rfl⟩ := step_eq_ok_iff.mp h
  have draftOf := hbind
  rw [hwrites] at draftOf
  have draftOf := isDraftOf_bind draftOf
  rw [step_eq, behind.writes, hbind, draftOf.complaint?_eq shared (loaded.isMap object hobject)
    seen.names hpaths]
  change ∃ strictNext, (liftFault (undeclaredPaths (draft.object.value writes')) >>= fun paths =>
    ({ strict with writes := writes' } : Progress).take draft paths) = .ok strictNext ∧ _
  rw [draftOf.undeclaredPaths_eq shared loaded hobject seen, hpaths]
  change ∃ strictNext, ({ strict with writes := writes' } : Progress).take draft paths =
    .ok strictNext ∧ _
  rw [Progress.take]
  cases paths with
  | nil =>
    refine ⟨_, add_eq_ok_iff.mpr ⟨fun other hother => ?_, rfl⟩, ⟨rfl, ?_⟩,
      (List.append_nil _).symm⟩
    · exact fresh other (behind.drafts.subset hother)
    · exact behind.drafts.append_right [draft]
  | cons path paths =>
    exact ⟨_, rfl, ⟨rfl, behind.drafts.trans (List.sublist_append_left ..)⟩, rfl⟩

/-- A strict build goes on where another one does, and finds what was undeclared in the objects when
they were loaded. -/
theorem exists_steps_strict (loaded : AreLoaded objects writes)
    (seen : ∀ object ∈ objects, IsSeenAsLoaded discovery space writes objects object)
    (searched : ∀ object ∈ objects, ∃ paths, undeclaredPaths (object.value writes) = .ok paths)
    (within : rest ⊆ objects) (hwrites : progress.writes = writes ++ later)
    (shared : AreSharedSpaces discovery space writes objects later) {strict : Progress}
    (behind : IsBehind strict progress)
    (h : rest.foldlM (Progress.step false discovery space) progress = .ok last) :
    ∃ strictLast, rest.foldlM (Progress.step true discovery space) strict = .ok strictLast ∧
      strictLast.undeclared = strict.undeclared ++
        rest.filterMap fun object => complaint? (object.value writes) := by
  induction rest generalizing progress strict later with
  | nil => exact ⟨strict, rfl, (List.append_nil _).symm⟩
  | cons object rest ih =>
    obtain ⟨hobject, within⟩ := List.cons_subset.mp within
    rw [List.foldlM_cons] at h
    obtain ⟨next, hstep, h⟩ := Reconciler.bind_eq_ok.mp h
    obtain ⟨all, allShared, hnext⟩ := areSharedSpaces_step hstep hwrites shared
      (loaded.isMap object hobject) hobject (seen object hobject).names
    obtain ⟨paths, hpaths⟩ := searched object hobject
    obtain ⟨strictNext, hstrict, behind, grown⟩ := exists_step_strict loaded hobject
      (seen object hobject) hwrites shared hpaths behind hstep
    obtain ⟨strictLast, hsteps, hundeclared⟩ := ih within hnext allShared behind h
    refine ⟨strictLast, ?_, ?_⟩
    · rw [List.foldlM_cons, hstrict]
      exact hsteps
    · rw [hundeclared, grown, List.append_assoc, List.filterMap_cons]
      cases complaint? (object.value writes) <;> rfl

/-! ### The manifest -/

variable {source : Source} {refs : RefSet}

/-- A strict build that succeeds gives what another one gives. -/
theorem build_lenient_of_strict (h : build true discovery space source = .ok refs) :
    build false discovery space source = .ok refs := by
  obtain ⟨⟨objects, writes⟩, hload, h⟩ := Reconciler.bind_eq_ok.mp h
  obtain ⟨last, hsteps, h⟩ := Reconciler.bind_eq_ok.mp h
  refine Reconciler.bind_eq_ok.mpr ⟨_, hload, Reconciler.bind_eq_ok.mpr ⟨last, ?_, h⟩⟩
  split at h
  · rename_i none
    exact (steps_lenient_of_strict hsteps (List.isEmpty_iff.mp none)).2
  · cases h

theorem areSharedSpaces_nil : AreSharedSpaces discovery space writes objects [] :=
  ⟨List.forall_mem_nil _, List.forall_mem_nil _⟩

/-- A strict build that succeeds is one of objects without undeclared fields. -/
theorem isDeclared_of_build (seen : AreSeenAsLoaded discovery space source)
    (h : build true discovery space source = .ok refs) {values : List Value}
    (hvalues : load source = .ok values) : ∀ value ∈ values, IsDeclared value := by
  obtain ⟨⟨objects, writes⟩, hload, h⟩ := Reconciler.bind_eq_ok.mp h
  obtain ⟨last, hsteps, h⟩ := Reconciler.bind_eq_ok.mp h
  obtain ⟨_, _, htrees, rfl⟩ := load_eq_ok_iff.mp hvalues
  obtain ⟨rfl, rfl⟩ := Prod.mk.inj (Except.ok.inj (hload.symm.trans htrees))
  split at h
  · rename_i none
    have start : ({ writes } : Progress).writes = writes ++ [] := (List.append_nil writes).symm
    exact List.forall_mem_map.mpr (isDeclared_of_steps (areLoaded_of_loadTrees hload)
      (seen objects writes hload) (List.Subset.refl objects) start areSharedSpaces_nil hsteps
      (List.isEmpty_iff.mp none))
  · cases h

/-- Where another build succeeds, a strict one does unless it finds undeclared fields, and then it
reports all of them. -/
theorem build_strict_eq (seen : AreSeenAsLoaded discovery space source)
    (h : build false discovery space source = .ok refs) {values : List Value}
    (hvalues : load source = .ok values)
    (searched : ∀ value ∈ values, ∃ paths, undeclaredPaths value = .ok paths) :
    (values.filterMap complaint? = [] ∧ ∃ refs, build true discovery space source = .ok refs) ∨
      values.filterMap complaint? ≠ [] ∧ build true discovery space source =
        .error (.ofCause (.undeclared (values.filterMap complaint?))) := by
  obtain ⟨⟨objects, writes⟩, hload, h⟩ := Reconciler.bind_eq_ok.mp h
  obtain ⟨last, hsteps, -⟩ := Reconciler.bind_eq_ok.mp h
  obtain ⟨_, _, htrees, rfl⟩ := load_eq_ok_iff.mp hvalues
  obtain ⟨rfl, rfl⟩ := Prod.mk.inj (Except.ok.inj (hload.symm.trans htrees))
  have start : ({ writes } : Progress).writes = writes ++ [] := (List.append_nil writes).symm
  obtain ⟨strictLast, hstrict, hundeclared⟩ := exists_steps_strict (areLoaded_of_loadTrees hload)
    (seen objects writes hload) (fun object h => searched _ (List.mem_map_of_mem h))
    (List.Subset.refl objects) start areSharedSpaces_nil ⟨rfl, List.Sublist.refl _⟩ hsteps
  rw [List.nil_append] at hundeclared
  have built : build true discovery space source =
      if strictLast.undeclared.isEmpty then
        .ok (strictLast.drafts.map (Draft.ref strictLast.writes))
      else .error (.ofCause (.undeclared strictLast.undeclared)) := by
    rw [(load_and_build_of_loadTrees hload).2, buildTrees, hstrict]
    rfl
  rw [List.filterMap_map, built]
  change _ = objects.filterMap (complaint? ∘ Tree.value writes) at hundeclared
  rw [← hundeclared]
  cases strictLast.undeclared with
  | nil => exact .inl ⟨rfl, _, rfl⟩
  | cons complaint complaints => exact .inr ⟨List.cons_ne_nil _ _, rfl⟩

theorem complaint?_eq_none_iff {object : Value} {paths : List String}
    (h : undeclaredPaths object = .ok paths) : complaint? object = none ↔ IsDeclared object := by
  rw [complaint?_of_paths h, ← undeclaredPaths_eq_nil_iff, h]
  cases paths with
  | nil => exact ⟨fun _ => rfl, fun _ => rfl⟩
  | cons path paths => exact ⟨nofun, nofun⟩

/-- Undeclared fields can be looked for in objects whose names and keys are text. -/
theorem exists_paths_of_load (seen : AreSeenAsLoaded discovery space source) {values : List Value}
    (hvalues : load source = .ok values) (keyed : ∀ value ∈ values, value.hasTextKeys) :
    ∀ value ∈ values, ∃ paths, undeclaredPaths value = .ok paths := by
  obtain ⟨objects, writes, hload, rfl⟩ := load_eq_ok_iff.mp hvalues
  refine List.forall_mem_map.mpr fun object hobject => ?_
  have names := (seen objects writes hload object hobject).names
  simp only [hasTextNames, Bool.and_eq_true] at names
  have isMap := isMap_value ((areLoaded_of_loadTrees hload).isMap object hobject) writes
  exact exists_undeclaredPaths isMap (Value.isTextOrAbsent_of_isTextIfPresent names.1.1)
    (Value.isTextOrAbsent_of_isTextIfPresent names.1.2)
    fun _ _ _ => keyed _ (List.mem_map_of_mem hobject)

/-- A strict build succeeds exactly if another one does and no object has undeclared fields, and the
references are the same. Where there are undeclared fields and the keys of all objects are text, it
fails with a problem that lists, object by object, all of them. -/
theorem strict_build_agrees (discovery : Discovery) (space : Value) (source : Source)
    (seen : AreSeenAsLoaded discovery space source) :
    ((∃ refs, build true discovery space source = .ok refs) ↔
      (∃ refs, build false discovery space source = .ok refs) ∧
      ∀ values, load source = .ok values → ∀ value ∈ values, IsDeclared value) ∧
    (∀ refs, build true discovery space source = .ok refs →
      build false discovery space source = .ok refs) ∧
    ∀ values, load source = .ok values → (∀ value ∈ values, value.hasTextKeys) →
      (∃ refs, build false discovery space source = .ok refs) →
      (∃ value ∈ values, ¬IsDeclared value) →
      ∃ problem : Problem, build true discovery space source = .error (.problem problem) ∧
        problem.category = .encoding ∧ problem.message = String.intercalate "; "
          ((values.filterMap complaint?).map Cause.undeclaredText) := by
  refine ⟨⟨?_, ?_⟩, fun refs => build_lenient_of_strict, ?_⟩
  · rintro ⟨refs, h⟩
    exact ⟨⟨refs, build_lenient_of_strict h⟩,
      fun values hvalues => isDeclared_of_build seen h hvalues⟩
  · rintro ⟨⟨refs, h⟩, declared⟩
    obtain ⟨⟨objects, writes⟩, hload, -⟩ := Reconciler.bind_eq_ok.mp h
    have hvalues := load_eq_ok_iff.mpr ⟨objects, writes, hload, rfl⟩
    have none : ∀ value ∈ objects.map (Tree.value writes), undeclaredPaths value = .ok [] :=
      fun value hvalue => undeclaredPaths_eq_nil_iff.mpr (declared _ hvalues value hvalue)
    rcases build_strict_eq seen h hvalues fun value hvalue => ⟨[], none value hvalue⟩ with
      ⟨-, built⟩ | ⟨some, -⟩
    · exact built
    · refine absurd (List.filterMap_eq_nil_iff.mpr fun value hvalue => ?_) some
      rw [complaint?_of_paths (none value hvalue)]
      rfl
  · rintro values hvalues keyed ⟨refs, h⟩ ⟨value, hvalue, undeclared⟩
    have searched := exists_paths_of_load seen hvalues keyed
    rcases build_strict_eq seen h hvalues searched with ⟨none, -⟩ | ⟨-, failed⟩
    · obtain ⟨paths, hpaths⟩ := searched value hvalue
      exact absurd ((complaint?_eq_none_iff hpaths).mp
        (List.filterMap_eq_nil_iff.mp none value hvalue)) undeclared
    · exact ⟨_, failed, rfl, rfl⟩

/-- A manifest with two objects, of which the second has two undeclared fields. -/
def overstatedText : String :=
  "apiVersion: v1\nkind: ConfigMap\nmetadata:\n  name: x\n---\n" ++
  "apiVersion: v1\nkind: ConfigMap\nmetadata:\n  name: y\ndta:\n  a: b\nspec: 1\n"

/-- A strict build names the one object that has undeclared fields, and all of these. -/
theorem strict_build_reports_overstated :
    AreSeenAsLoaded (Cluster.discovery (.text "default")) (.text "test")
      (.text overstatedText) ∧
    ∃ problem : Problem, build true (Cluster.discovery (.text "default")) (.text "test")
      (.text overstatedText) = .error (.problem problem) ∧ problem.category = .encoding ∧
      problem.message = "error validating ConfigMap 'y': unknown field(s) dta, spec" := by
  have run : (loadTrees (.text overstatedText)).toOption.any fun read =>
      let values := read.1.map (Tree.value read.2)
      values.all hasTextNames && values.all Value.hasTextKeys &&
      (spaceWrites (Cluster.discovery (.text "default")) (.text "test") read.2 read.1).isEmpty &&
      (buildTrees false (Cluster.discovery (.text "default")) (.text "test") read.1 read.2).isOk &&
      (values.any fun value => (complaint? value).isSome) &&
      String.intercalate "; " ((values.filterMap complaint?).map Cause.undeclaredText) ==
        "error validating ConfigMap 'y': unknown field(s) dta, spec" := by decide +kernel
  obtain ⟨⟨objects, writes⟩, hload, run⟩ := exists_of_any run
  simp only [Bool.and_eq_true, List.all_eq_true, beq_iff_eq] at run
  obtain ⟨⟨⟨⟨⟨names, keyed⟩, unshared⟩, built⟩, some⟩, message⟩ := run
  have seen : AreSeenAsLoaded (Cluster.discovery (.text "default")) (.text "test")
      (.text overstatedText) := by
    intro _ _ again object hobject
    obtain ⟨rfl, rfl⟩ := Prod.mk.inj (Except.ok.inj (hload.symm.trans again))
    refine ⟨names _ (List.mem_map_of_mem hobject), fun _ _ _ write hwrite => ?_⟩
    rw [List.isEmpty_iff.mp unshared] at hwrite
    cases hwrite
  obtain ⟨hvalues, hbuild⟩ := load_and_build_of_loadTrees hload
  rw [← hbuild] at built
  obtain ⟨value, hvalue, complains⟩ := List.any_eq_true.mp some
  have undeclared : ¬IsDeclared value := by
    intro declared
    rw [complaint?_of_paths (undeclaredPaths_eq_nil_iff.mpr declared)] at complains
    cases complains
  obtain ⟨problem, failed, category, text⟩ := (strict_build_agrees _ _ _ seen).2.2 _ hvalues
    keyed (exists_of_isOk built) ⟨value, hvalue, undeclared⟩
  exact ⟨seen, problem, failed, category, text.trans message⟩

/-- A manifest with an object whose metadata stands among its declared parts a second time. -/
def sharedSecretText : String :=
  "apiVersion: v1\nkind: ServiceAccount\nmetadata: &m\n  name: x\nimagePullSecrets:\n- *m\n"

/-- A strict build may refuse an object that has no undeclared fields: a namespace that is written
to its metadata is one where the metadata stands a second time. -/
theorem strict_build_refuses_shared_secret :
    ¬∀ (discovery : Discovery) (space : Value) (source : Source),
      (∀ values, load source = .ok values → ∀ value ∈ values, hasTextNames value) →
      ((∃ refs, build true discovery space source = .ok refs) ↔
        (∃ refs, build false discovery space source = .ok refs) ∧
        ∀ values, load source = .ok values → ∀ value ∈ values, IsDeclared value) := by
  intro agree
  have run : (loadTrees (.text sharedSecretText)).toOption.any fun read =>
      (read.1.map (Tree.value read.2)).all (fun value => hasTextNames value &&
        (undeclaredPaths value).toOption.any List.isEmpty) &&
      (buildTrees false (Cluster.discovery (.text "default")) (.text "test") read.1 read.2).isOk &&
      !(buildTrees true (Cluster.discovery (.text "default")) (.text "test") read.1 read.2).isOk :=
    by decide +kernel
  obtain ⟨⟨objects, writes⟩, hload, run⟩ := exists_of_any run
  obtain ⟨hvalues, hbuild⟩ := load_and_build_of_loadTrees hload
  simp only [Bool.and_eq_true, List.all_eq_true, Bool.not_eq_true', ← hbuild] at run
  obtain ⟨⟨each, built⟩, refused⟩ := run
  have declared (value : Value) (hvalue : value ∈ objects.map (Tree.value writes)) :
      IsDeclared value := by
    obtain ⟨paths, hpaths, empty⟩ := exists_of_any (each value hvalue).2
    rw [List.isEmpty_iff.mp empty] at hpaths
    exact undeclaredPaths_eq_nil_iff.mp hpaths
  have only (others : List Value) (h : load (.text sharedSecretText) = .ok others) :
      others = objects.map (Tree.value writes) := (Except.ok.inj (hvalues.symm.trans h)).symm
  obtain ⟨refs, strict⟩ := (agree _ _ _ fun others h value hvalue =>
    (each value (only others h ▸ hvalue)).1).mpr ⟨exists_of_isOk built,
      fun others h value hvalue => declared value (only others h ▸ hvalue)⟩
  rw [strict] at refused
  cases refused

end Reconciler.Manifest

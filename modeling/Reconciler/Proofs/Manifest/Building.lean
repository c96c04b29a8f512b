import Reconciler.Cluster.Store
import Reconciler.Proofs.Manifest.Binding
import Reconciler.Proofs.Manifest.Identity
import Reconciler.Proofs.Manifest.Loading
import Reconciler.Proofs.Value.Decidable

/-!
# What a manifest is built to

A manifest builds if all of its objects can be bound and no two of them are then the same, and
each object becomes one reference.

The objects are taken one after another, and the namespaces that have been written by then matter
to no step, since objects that share their metadata have the same namespace. The body of a
reference is read when all namespaces have been written. It is the object with its own namespace,
unless metadata to which a namespace is written stands in the object a second time. Main
statement: what a build gives, for every manifest.
-/

namespace Reconciler.Manifest

open Reconciler.Tree

/-- No metadata to which a namespace is written stands in the namespace that an object has. -/
def HasOwnSpace (discovery : Discovery) (space : Value) (writes : Writes) (objects : List Tree)
    (object : Tree) : Prop :=
  isNamespaced discovery (object.value writes) → ∀ metadata own,
    object.member? writes "metadata" = some metadata →
    metadata.member? writes "namespace" = some own →
    ∀ write ∈ spaceWrites discovery space writes objects, ¬own.Carries write.mark

/-- The API version, the kind and the name of an object are no collections, and its namespace has
no metadata in it that is given one. -/
structure IsPlain (discovery : Discovery) (space : Value) (writes : Writes) (objects : List Tree)
    (object : Tree) : Prop where
  names : hasPlainNames (object.value writes)
  space : HasOwnSpace discovery space writes objects object

/-- All objects of a manifest are plain. -/
def HasPlainObjects (discovery : Discovery) (space : Value) (source : Source) : Prop :=
  ∀ objects writes, loadTrees source = .ok (objects, writes) →
    ∀ object ∈ objects, IsPlain discovery space writes objects object

/-- An object as it would be if its metadata stood nowhere else. -/
def detached : Tree → Tree
  | .map mark members =>
    match find? members "metadata" with
    | some (.map _ own) => .map mark (put members (.text "metadata") (.map none own))
    | _ => .map mark members
  | tree => tree

/-- No metadata to which a namespace is written stands in an object, other than as its own if it
is in a namespace. -/
def IsApart (discovery : Discovery) (space : Value) (writes : Writes) (objects : List Tree)
    (object : Tree) : Prop :=
  ∀ write ∈ spaceWrites discovery space writes objects,
    ¬(if isNamespaced discovery (object.value writes) then detached object
      else object).Carries write.mark

/-- A reference is what one of the objects of a manifest is built to. -/
structure IsBuiltFrom (discovery : Discovery) (space : Value) (writes : Writes)
    (objects : List Tree) (object : Tree) (ref : Ref) : Prop where
  /-- Up to its body, the reference is that to which the object is bound. -/
  bound : ref = (refOf discovery space (object.value writes)).refresh ref.body
  /-- All namespaces are seen wherever the metadata to which they are written stands. -/
  shared : ref.body = (placedTree discovery space writes object).value
    (writes ++ spaceWrites discovery space writes objects)
  /-- The namespace of the reference is the one in its body. -/
  placed : isNamespaced discovery (object.value writes) →
    Cluster.metadataField ref.body "namespace" = ref.space
  /-- Nothing else of the object is changed. -/
  kept : IsApart discovery space writes objects object →
    ref.body = (refOf discovery space (object.value writes)).body

variable {discovery : Discovery} {space : Value} {writes : Writes} {object : Tree}
  {objects : List Tree}

/-! ### Going through the objects -/

/-- A namespace that is no collection has no metadata in it. -/
theorem hasOwnSpace_of_isLeaf (loaded : AreLoaded objects writes) (h : object ∈ objects)
    (plain : (Cluster.metadataField (object.value writes) "namespace").isLeaf) :
    HasOwnSpace discovery space writes objects object := by
  intro _ metadata own found hown
  have hmap : metadata.isMap := by
    cases metadata with
    | map => rfl
    | _ => cases hown
  rw [metadataField_eq (loaded.isMap object h) found] at plain
  exact apart_of_isLeaf hmap plain own hown

theorem isReadable_of_mem (loaded : AreLoaded objects writes) (h : object ∈ objects)
    (plain : hasPlainNames (object.value writes)) : IsReadable writes object :=
  ⟨loaded.isMap object h, loaded.metadata object h, loaded.written, plain⟩

/-- Objects that share their metadata have the same namespace, so none of them has written another
one to it. -/
theorem writesSpace_of_mem (loaded : AreLoaded objects writes) {done : List Tree}
    (hdone : done ⊆ objects) (h : object ∈ objects)
    (own : HasOwnSpace discovery space writes objects object) :
    WritesSpace discovery space writes object (spaceWrites discovery space writes done) := by
  have earlier : spaceWrites discovery space writes done ⊆
      spaceWrites discovery space writes objects := List.filterMap_subset _ hdone
  refine ⟨fun _ => name_of_mem_spaceWrites, fun metadata mark found marked write hmem hmark => ?_,
    fun namespaced metadata member found hmember write hmem =>
      own namespaced metadata member found hmember write (earlier hmem)⟩
  obtain ⟨other, hother, hshared⟩ := List.mem_filterMap.mp hmem
  rw [sharedSpace?] at hshared
  split at hshared
  · obtain ⟨own, hown, rfl⟩ := Option.map_eq_some_iff.mp hshared
    obtain ⟨metadata', found', marked'⟩ := Option.bind_eq_some_iff.mp hown
    obtain rfl : own = mark := hmark
    obtain rfl := loaded.once metadata metadata' own
      ⟨object, h, isIn_of_member? loaded.written found⟩
      ⟨other, hdone hother, isIn_of_member? loaded.written found'⟩ marked marked'
    dsimp only
    rw [spaceOf, spaceOf, metadataField_eq (loaded.isMap object h) found,
      metadataField_eq (loaded.isMap other (hdone hother)) found']
  · cases hshared

/-- What has been built from objects. -/
def stage (discovery : Discovery) (space : Value) (writes : Writes) (done : List Tree) :
    Progress where
  drafts := done.map (draftOf discovery space writes)
  writes := writes ++ spaceWrites discovery space writes done

/-- The references to which objects are bound by what they were when they were loaded. -/
def refsOf (discovery : Discovery) (space : Value) (writes : Writes) (objects : List Tree) :
    RefSet :=
  objects.map fun object => refOf discovery space (object.value writes)

theorem add_eq_ok_iff {progress next : Progress} {draft : Draft} :
    progress.add draft = .ok next ↔
      (∀ other ∈ progress.drafts,
        (other.ref progress.writes).sameIdentity (draft.ref progress.writes) = false) ∧
      next = { progress with drafts := progress.drafts ++ [draft] } := by
  unfold Progress.add
  dsimp only
  have fresh : RefSet.contains (progress.drafts.map (Draft.ref progress.writes))
      (draft.ref progress.writes) = false ↔ ∀ other ∈ progress.drafts,
        (other.ref progress.writes).sameIdentity (draft.ref progress.writes) = false := by
    rw [← Bool.not_eq_true, RefSet.contains_iff]
    simp
  rw [← fresh]
  cases RefSet.contains (progress.drafts.map (Draft.ref progress.writes))
    (draft.ref progress.writes) with
  | true => exact ⟨nofun, fun h => (nomatch h.1)⟩
  | false => exact ⟨fun h => ⟨rfl, (Except.ok.inj h).symm⟩, fun h => congrArg Except.ok h.2.symm⟩

theorem step_eq_ok_iff {progress next : Progress} :
    progress.step false discovery space object = .ok next ↔
      ∃ draft writes', bind discovery space progress.writes object = .ok (draft, writes') ∧
        (∀ other ∈ progress.drafts,
          (other.ref writes').sameIdentity (draft.ref writes') = false) ∧
        next = { progress with drafts := progress.drafts ++ [draft], writes := writes' } := by
  rw [Progress.step, Reconciler.bind_eq_ok]
  constructor
  · rintro ⟨⟨draft, writes'⟩, hbind, hadd⟩
    exact ⟨draft, writes', hbind, add_eq_ok_iff.mp hadd⟩
  · rintro ⟨draft, writes', hbind, hadd⟩
    exact ⟨⟨draft, writes'⟩, hbind, add_eq_ok_iff.mpr hadd⟩

/-- One more object is taken into what has been built if it can be bound and is not there. -/
theorem step_stage (loaded : AreLoaded objects writes)
    (plain : ∀ object ∈ objects, IsPlain discovery space writes objects object)
    {done : List Tree} (hdone : done ⊆ objects) (h : object ∈ objects) {next : Progress} :
    (stage discovery space writes done).step false discovery space object = .ok next ↔
      IsBindable discovery (object.value writes) ∧
      (∀ ref ∈ refsOf discovery space writes done,
        ref.sameIdentity (refOf discovery space (object.value writes)) = false) ∧
      next = stage discovery space writes (done ++ [object]) := by
  have readable := isReadable_of_mem loaded h (plain object h).names
  have written : WritesSpace discovery space writes object
      (spaceWrites discovery space writes done) := 
    writesSpace_of_mem loaded hdone h (plain object h).space
  have grown : stage discovery space writes (done ++ [object]) =
      { stage discovery space writes done with
        drafts := (stage discovery space writes done).drafts ++
          [draftOf discovery space writes object]
        writes := writes ++ spaceWrites discovery space writes done ++
          (sharedSpace? discovery space writes object).toList } := by
    simp only [stage, spaceWrites, List.map_append, List.map_singleton, List.filterMap_append,
      List.append_assoc]
    cases hshared : sharedSpace? discovery space writes object <;> simp [hshared]
  rw [step_eq_ok_iff, grown]
  constructor
  · rintro ⟨draft, writes', hbind, fresh, rfl⟩
    obtain ⟨bindable, heq⟩ := (bind_append_eq_ok_iff readable written).mp hbind
    obtain ⟨rfl, rfl⟩ := Prod.mk.inj heq
    refine ⟨bindable, fun ref href => ?_, rfl⟩
    obtain ⟨other, hother, rfl⟩ := List.mem_map.mp href
    exact fresh (draftOf discovery space writes other) (List.mem_map_of_mem hother)
  · rintro ⟨bindable, fresh, rfl⟩
    refine ⟨_, _, (bind_append_eq_ok_iff readable written).mpr ⟨bindable, rfl⟩,
      fun draft hdraft => ?_, rfl⟩
    obtain ⟨other, hother, rfl⟩ := List.mem_map.mp hdraft
    exact fresh (refOf discovery space (other.value writes)) (List.mem_map_of_mem hother)

/-- Objects are taken in one after another if they can all be bound and are all different. -/
theorem steps_stage (loaded : AreLoaded objects writes)
    (plain : ∀ object ∈ objects, IsPlain discovery space writes objects object)
    {done rest : List Tree} (hall : done ++ rest ⊆ objects)
    (distinct : Distinct (refsOf discovery space writes done)) {last : Progress} :
    rest.foldlM (Progress.step false discovery space) (stage discovery space writes done) =
        .ok last ↔
      (∀ object ∈ rest, IsBindable discovery (object.value writes)) ∧
      Distinct (refsOf discovery space writes (done ++ rest)) ∧
      last = stage discovery space writes (done ++ rest) := by
  induction rest generalizing done with
  | nil =>
    rw [List.append_nil]
    exact ⟨fun h => ⟨List.forall_mem_nil _, distinct, (Except.ok.inj h).symm⟩,
      fun h => congrArg Except.ok h.2.2.symm⟩
  | cons object rest ih =>
    have hdone : done ⊆ objects := fun other hother => hall (List.mem_append_left _ hother)
    have hobject : object ∈ objects := hall (by simp)
    have hrest : (done ++ [object]) ++ rest ⊆ objects := by
      rw [List.append_assoc]
      exact hall
    have regroup : done ++ object :: rest = (done ++ [object]) ++ rest := by simp
    rw [List.foldlM_cons, Reconciler.bind_eq_ok, regroup, List.forall_mem_cons]
    constructor
    · rintro ⟨next, hstep, hsteps⟩
      obtain ⟨bindable, fresh, rfl⟩ := (step_stage loaded plain hdone hobject).mp hstep
      have grown : Distinct (refsOf discovery space writes (done ++ [object])) := by
        rw [refsOf, List.map_append]
        refine List.pairwise_append.mpr ⟨distinct, List.pairwise_singleton _ _, ?_⟩
        intro x hx y hy
        obtain rfl := List.mem_singleton.mp hy
        exact fresh x hx
      obtain ⟨others, distinct, rfl⟩ := (ih hrest grown).mp hsteps
      exact ⟨⟨bindable, others⟩, distinct, rfl⟩
    · rintro ⟨⟨bindable, others⟩, whole, rfl⟩
      have grown : Distinct (refsOf discovery space writes (done ++ [object])) := by
        rw [refsOf, List.map_append] at whole
        exact (List.pairwise_append.mp whole).1
      refine ⟨stage discovery space writes (done ++ [object]),
        (step_stage loaded plain hdone hobject).mpr ⟨bindable, fun ref href => ?_, rfl⟩,
        (ih hrest grown).mpr ⟨others, whole, rfl⟩⟩
      rw [refsOf, List.map_append] at grown
      exact (List.pairwise_append.mp grown).2.2 ref href _ (List.mem_singleton_self _)

/-- Objects build if they can all be bound and are all different, and each to one reference. -/
theorem buildTrees_eq_ok_iff (loaded : AreLoaded objects writes)
    (plain : ∀ object ∈ objects, IsPlain discovery space writes objects object)
    {refs : RefSet} :
    buildTrees false discovery space objects writes = .ok refs ↔
      (∀ object ∈ objects, IsBindable discovery (object.value writes)) ∧
      Distinct (refsOf discovery space writes objects) ∧
      refs = objects.map fun object => (draftOf discovery space writes object).ref
        (writes ++ spaceWrites discovery space writes objects) := by
  have start : ({ writes } : Progress) = stage discovery space writes [] := by
    simp [stage, spaceWrites]
  have steps (last : Progress) :
      objects.foldlM (Progress.step false discovery space) (stage discovery space writes []) =
          .ok last ↔
        (∀ object ∈ objects, IsBindable discovery (object.value writes)) ∧
        Distinct (refsOf discovery space writes objects) ∧
        last = stage discovery space writes objects := by
    have all : [] ++ objects ⊆ objects := List.Subset.refl objects
    have none : Distinct (refsOf discovery space writes []) := .nil
    exact steps_stage loaded plain all none
  rw [buildTrees, start, Reconciler.bind_eq_ok]
  constructor
  · rintro ⟨last, hlast, hrefs⟩
    obtain ⟨bindable, distinct, rfl⟩ := (steps last).mp hlast
    exact ⟨bindable, distinct, (Except.ok.inj hrefs).symm.trans List.map_map⟩
  · rintro ⟨bindable, distinct, rfl⟩
    exact ⟨_, (steps _).mpr ⟨bindable, distinct, rfl⟩, congrArg Except.ok List.map_map⟩

/-! ### Bodies -/

/-- An object whose metadata has been given a namespace has it once all that is written to shared
metadata has been written. -/
theorem value_writeSpace {mark shared : Option Nat} {members own : List (Value × Tree)}
    (written : ∀ write ∈ writes, write.name ≠ "metadata")
    (found : find? members "metadata" = some (.map shared own)) (space : Value)
    (last : ∀ own, shared = some own → writes.last? own "namespace" = some space)
    (earlier : Writes) :
    (writeSpace earlier space (.map mark members) (.map shared own)).1.value writes =
      Cluster.writeMetadata ((Tree.map mark members).value writes) "namespace" space := by
  have present : (find? members "metadata").isSome := by rw [found]; rfl
  rw [Cluster.writeMetadata, ← map_member? rfl, member?_eq_find? written, found, Option.map_some,
    Value.ofOption]
  cases shared with
  | none =>
    rw [writeSpace, Tree.write]
    dsimp only
    rw [value_put written present, value, memberValues_put, value, value, Value.members_map]
  | some shared =>
    have there : ((Tree.map (some shared) own).value writes).members.field? "namespace" =
        some space := by
      rw [← map_member? rfl, member?, last shared rfl, Option.map_some, value]
    rw [writeSpace, Tree.write]
    dsimp only
    rw [value_put written present, Members.put_eq_self there, value, Value.members_map]

/-- The metadata of an object that is detached stands nowhere else, so nothing is written to it. -/
theorem value_detached {mark shared : Option Nat} {members own : List (Value × Tree)}
    (written : ∀ write ∈ writes, write.name ≠ "metadata")
    (found : find? members "metadata" = some (.map shared own)) :
    (detached (.map mark members)).value writes =
      .map (((Tree.map mark members).value writes).members.put (.text "metadata")
        (.map (memberValues writes own))) := by
  rw [detached, found]
  dsimp only
  rw [value_put written (by rw [found]; rfl), value]

/-- An object in which no metadata stands twice is up to its namespace the same before and after
namespaces have been written to shared metadata. -/
theorem writeMetadata_append {later : Writes} {mark shared : Option Nat}
    {members own : List (Value × Tree)} (written : ∀ write ∈ writes, write.name ≠ "metadata")
    (spaces : ∀ write ∈ later, write.name = "namespace")
    (found : find? members "metadata" = some (.map shared own))
    (apart : ∀ write ∈ later, ¬(detached (.map mark members)).Carries write.mark) (space : Value) :
    Cluster.writeMetadata ((Tree.map mark members).value (writes ++ later)) "namespace" space =
      Cluster.writeMetadata ((Tree.map mark members).value writes) "namespace" space := by
  have writtenAll : ∀ write ∈ writes ++ later, write.name ≠ "metadata" := by
    intro write hmem
    rcases List.mem_append.mp hmem with hwrite | hlater
    · exact written write hwrite
    · exact spaces write hlater ▸ (by decide)
  have field (all : Writes) (h : ∀ write ∈ all, write.name ≠ "metadata") :
      ((Tree.map mark members).value all).members.field? "metadata" =
        some ((Tree.map shared own).value all) := by
    rw [← map_member? rfl, member?_eq_find? h, found, Option.map_some]
  have kept := value_append (detached (.map mark members)) writes apart
  rw [value_detached written found, value_detached writtenAll found] at kept
  have others := Value.map.inj kept
  have inner : memberValues (writes ++ later) own = memberValues writes own := by
    have values := congrArg (Members.field? · "metadata") others
    simp only [Members.field?_put, if_true] at values
    exact Value.map.inj (Option.some.inj values)
  have spaced : ((Tree.map shared own).value (writes ++ later)).members.put (.text "namespace")
      space = ((Tree.map shared own).value writes).members.put (.text "namespace") space := by
    cases shared with
    | none => rw [value, value, inner]
    | some shared =>
      rw [value, value, inner, Value.members_map, Value.members_map, Writes.apply_append,
        Writes.put_apply fun write hmem _ => spaces write hmem]
  rw [Cluster.writeMetadata, Cluster.writeMetadata, field _ writtenAll, field _ written]
  dsimp only [Value.ofOption]
  rw [spaced]
  exact congrArg Value.map (Members.put_of_put_eq others _)

/-- Nothing is written to the metadata of an object as a whole. -/
theorem name_ne_metadata (loaded : AreLoaded objects writes) :
    ∀ write ∈ writes ++ spaceWrites discovery space writes objects, write.name ≠ "metadata" := by
  intro write hmem
  rcases List.mem_append.mp hmem with hwrite | hspace
  · exact loaded.written write hwrite
  · exact name_of_mem_spaceWrites hspace ▸ (by decide)

/-- An object that can be bound has metadata among its members. -/
theorem exists_metadata (loaded : AreLoaded objects writes) (h : object ∈ objects)
    (bindable : IsBindable discovery (object.value writes)) :
    ∃ mark members shared own, object = .map mark members ∧
      find? members "metadata" = some (.map shared own) := by
  have isMap := bindable.metadata
  rw [Value.field, ← map_member? (loaded.isMap object h)] at isMap
  cases object with
  | map mark members =>
    cases found : (Tree.map mark members).member? writes "metadata" with
    | none =>
      rw [found] at isMap
      cases isMap
    | some metadata =>
      rw [found] at isMap
      have hmap := loaded.metadata _ h metadata found writes isMap
      rw [member?_eq_find? loaded.written] at found
      cases metadata with
      | map shared own => exact ⟨mark, members, shared, own, rfl, found⟩
      | _ => cases hmap
  | _ => cases loaded.isMap _ h

/-- An object has its namespace once all namespaces have been written. -/
theorem value_placedTree (loaded : AreLoaded objects writes) (h : object ∈ objects)
    (own : HasOwnSpace discovery space writes objects object)
    (bindable : IsBindable discovery (object.value writes))
    (namespaced : isNamespaced discovery (object.value writes)) :
    (placedTree discovery space writes object).value
        (writes ++ spaceWrites discovery space writes objects) =
      Cluster.writeMetadata
        (object.value (writes ++ spaceWrites discovery space writes objects)) "namespace"
        (spaceOf discovery space (object.value writes)) := by
  have written : WritesSpace discovery space writes object
      (spaceWrites discovery space writes objects) :=
    writesSpace_of_mem loaded (List.Subset.refl objects) h own
  obtain ⟨mark, members, shared, metadata, rfl, found⟩ := exists_metadata loaded h bindable
  have member : (Tree.map mark members).member? writes "metadata" =
      some (.map shared metadata) := by
    rw [member?_eq_find? loaded.written, found]
  rw [placedTree, if_pos namespaced, member]
  refine value_writeSpace (name_ne_metadata loaded) found _ ?_ writes
  rintro place rfl
  -- The object has written the namespace itself, and others that share its metadata the same one.
  have shared : sharedSpace? discovery space writes (.map mark members) =
      some ⟨place, "namespace",
        spaceOf discovery space ((Tree.map mark members).value writes)⟩ := by
    rw [sharedSpace?, if_pos namespaced, member]
    rfl
  exact Writes.last?_eq_some writes ⟨_, List.mem_filterMap.mpr ⟨_, h, shared⟩, rfl, rfl⟩
    (written.value _ _ member rfl)

/-- Each object is built to a reference with its namespace, and in which nothing else is changed
unless metadata stands twice in the object. -/
theorem isBuiltFrom_draftOf (loaded : AreLoaded objects writes) (h : object ∈ objects)
    (own : HasOwnSpace discovery space writes objects object)
    (bindable : IsBindable discovery (object.value writes)) :
    IsBuiltFrom discovery space writes objects object
      ((draftOf discovery space writes object).ref
        (writes ++ spaceWrites discovery space writes objects)) := by
  refine ⟨rfl, rfl, fun namespaced => ?_, fun apart => ?_⟩
  · rw [Draft.ref, draftOf, refOf, if_pos namespaced]
    dsimp only
    rw [value_placedTree loaded h own bindable namespaced, Cluster.metadataField_writeMetadata]
  · rw [Draft.ref, draftOf, refOf]
    dsimp only
    rw [IsApart] at apart
    cases namespaced : isNamespaced discovery (object.value writes) with
    | false =>
      rw [namespaced] at apart
      rw [placedTree, namespaced]
      exact value_append object writes apart
    | true =>
      rw [namespaced] at apart
      rw [value_placedTree loaded h own bindable namespaced]
      obtain ⟨mark, members, shared, metadata, rfl, found⟩ := exists_metadata loaded h bindable
      exact writeMetadata_append loaded.written (fun _ => name_of_mem_spaceWrites) found apart _

/-! ### The manifest -/

theorem load_eq_ok_iff {source : Source} {values : List Value} : load source = .ok values ↔
    ∃ objects writes, loadTrees source = .ok (objects, writes) ∧
      values = objects.map (Tree.value writes) := by
  rw [load, Reconciler.bind_eq_ok]
  constructor
  · rintro ⟨⟨objects, writes⟩, hload, hvalues⟩
    exact ⟨objects, writes, hload, (Except.ok.inj hvalues).symm.trans (values_eq_map ..)⟩
  · rintro ⟨objects, writes, hload, rfl⟩
    exact ⟨⟨objects, writes⟩, hload, congrArg Except.ok (values_eq_map ..)⟩

/-- What is loaded is what is built, strictly or not. -/
theorem load_and_build_of_loadTrees {source : Source} {objects : List Tree} {writes : Writes}
    (h : loadTrees source = .ok (objects, writes)) :
    load source = .ok (objects.map (Tree.value writes)) ∧ ∀ isStrict discovery space,
      build isStrict discovery space source =
        buildTrees isStrict discovery space objects writes := by
  refine ⟨load_eq_ok_iff.mpr ⟨objects, writes, h, rfl⟩, fun isStrict discovery space => ?_⟩
  rw [build, h]
  rfl

/-- Objects whose names and namespaces are no collections are plain. -/
theorem hasPlainObjects_of_isLeaf {source : Source}
    (h : ∀ objects writes, loadTrees source = .ok (objects, writes) → ∀ object ∈ objects,
      hasPlainNames (object.value writes) ∧
        (Cluster.metadataField (object.value writes) "namespace").isLeaf) :
    HasPlainObjects discovery space source := by
  intro objects writes hload object hobject
  obtain ⟨plain, own⟩ := h objects writes hload object hobject
  exact ⟨plain, hasOwnSpace_of_isLeaf (areLoaded_of_loadTrees hload) hobject own⟩

theorem build_eq_ok_iff {source : Source} (plain : HasPlainObjects discovery space source)
    {refs : RefSet} : build false discovery space source = .ok refs ↔
      ∃ objects writes, loadTrees source = .ok (objects, writes) ∧
        (∀ object ∈ objects, IsBindable discovery (object.value writes)) ∧
        Distinct (refsOf discovery space writes objects) ∧
        refs = objects.map fun object => (draftOf discovery space writes object).ref
          (writes ++ spaceWrites discovery space writes objects) := by
  rw [build, Reconciler.bind_eq_ok]
  constructor
  · rintro ⟨⟨objects, writes⟩, hload, hbuild⟩
    exact ⟨objects, writes, hload, (buildTrees_eq_ok_iff (areLoaded_of_loadTrees hload)
      (plain objects writes hload)).mp hbuild⟩
  · rintro ⟨objects, writes, hload, hbuild⟩
    exact ⟨⟨objects, writes⟩, hload, (buildTrees_eq_ok_iff (areLoaded_of_loadTrees hload)
      (plain objects writes hload)).mpr hbuild⟩

/-- A manifest builds exactly if it loads to objects that can all be bound and of which no two are
the same. It has then one reference for each object in order, and no two of them are the same. Each
has the namespace of its object, also in its body, in which nothing else is changed unless metadata
that is given a namespace stands there a second time. -/
theorem build_gives_bound_objects (discovery : Discovery) (space : Value) (source : Source)
    (plain : HasPlainObjects discovery space source) :
    ((∃ refs, build false discovery space source = .ok refs) ↔
      ∃ objects, load source = .ok objects ∧ (∀ object ∈ objects, IsBindable discovery object) ∧
        Distinct (objects.map (refOf discovery space))) ∧
    ∀ refs, build false discovery space source = .ok refs →
      Distinct refs ∧ ∃ objects writes, loadTrees source = .ok (objects, writes) ∧
        List.Forall₂ (IsBuiltFrom discovery space writes objects) objects refs := by
  refine ⟨⟨?_, ?_⟩, fun refs hbuild => ⟨distinct_of_build hbuild, ?_⟩⟩
  · rintro ⟨refs, hbuild⟩
    obtain ⟨objects, writes, hload, bindable, distinct, -⟩ := (build_eq_ok_iff plain).mp hbuild
    refine ⟨_, load_eq_ok_iff.mpr ⟨objects, writes, hload, rfl⟩, ?_, ?_⟩
    · exact List.forall_mem_map.mpr bindable
    · rw [List.map_map]
      exact distinct
  · rintro ⟨values, hload, bindable, distinct⟩
    obtain ⟨objects, writes, htrees, rfl⟩ := load_eq_ok_iff.mp hload
    rw [List.map_map] at distinct
    exact ⟨_, (build_eq_ok_iff plain).mpr
      ⟨objects, writes, htrees, List.forall_mem_map.mp bindable, distinct, rfl⟩⟩
  · obtain ⟨objects, writes, hload, bindable, -, rfl⟩ := (build_eq_ok_iff plain).mp hbuild
    refine ⟨objects, writes, hload, List.forall₂_map_right_iff.mpr ?_⟩
    exact List.forall₂_same.mpr fun object h => isBuiltFrom_draftOf (areLoaded_of_loadTrees hload) h
      (plain objects writes hload object h).space (bindable object h)

/-- A manifest with two objects of one name, of which one has a namespace. -/
def pairText : String :=
  "apiVersion: v1\nkind: Pod\nmetadata:\n  name: x\n---\n" ++
  "apiVersion: v1\nkind: Pod\nmetadata:\n  name: x\n  namespace: y\n"

/-- The two objects have distinct namespaces, so the manifest builds, and to two references. No
metadata is shared, so nothing but the namespaces is changed. -/
theorem build_gives_pair :
    HasPlainObjects (Cluster.discovery (.text "default")) (.text "test") (.text pairText) ∧
    ∃ refs objects writes,
      build false (Cluster.discovery (.text "default")) (.text "test") (.text pairText) =
        .ok refs ∧
      refs.map Ref.space = [.text "test", .text "y"] ∧ Distinct refs ∧
      loadTrees (.text pairText) = .ok (objects, writes) ∧
      (∀ object,
        IsApart (Cluster.discovery (.text "default")) (.text "test") writes objects object) ∧
      List.Forall₂ (IsBuiltFrom (Cluster.discovery (.text "default")) (.text "test") writes objects)
        objects refs := by
  have loaded : ((loadTrees (.text pairText)).toOption.all fun read =>
      (read.1.all fun object => hasPlainNames (object.value read.2) &&
        (Cluster.metadataField (object.value read.2) "namespace").isLeaf) &&
      (spaceWrites (Cluster.discovery (.text "default")) (.text "test") read.2 read.1).isEmpty) =
        true := by decide +kernel
  have plain : HasPlainObjects (Cluster.discovery (.text "default")) (.text "test")
      (.text pairText) := by
    refine hasPlainObjects_of_isLeaf fun objects writes hload => ?_
    rw [hload] at loaded
    simpa using (Bool.and_eq_true_iff.mp loaded).1
  have spaces : ((build false (Cluster.discovery (.text "default")) (.text "test")
      (.text pairText)).toOption.map (List.map Ref.space)) =
        some [.text "test", .text "y"] := by decide +kernel
  obtain ⟨refs, hrefs, hspaces⟩ := Option.map_eq_some_iff.mp spaces
  have built := toOption_eq_some_iff.mp hrefs
  obtain ⟨distinct, objects, writes, hload, each⟩ :=
    (build_gives_bound_objects _ _ _ plain).2 refs built
  rw [hload] at loaded
  have unshared := List.isEmpty_iff.mp (Bool.and_eq_true_iff.mp loaded).2
  refine ⟨plain, refs, objects, writes, built, hspaces, distinct, hload, ?_, each⟩
  intro object write hwrite
  rw [unshared] at hwrite
  cases hwrite

/-- A manifest with an object in which the metadata stands a second time. -/
def aliasedText : String :=
  "a: &m\n  name: x\napiVersion: v1\nkind: ConfigMap\nmetadata: *m\n"

/-- More than the metadata of an object may be changed: the namespace is also seen where the
metadata stands a second time. -/
theorem build_changes_aliased_part :
    ¬∀ (discovery : Discovery) (space : Value) (source : Source) (objects : List Value)
      (refs : RefSet), load source = .ok objects → (∀ object ∈ objects, hasPlainNames object) →
      build false discovery space source = .ok refs →
        refs.map Ref.body = objects.map fun object => (refOf discovery space object).body := by
  intro unchanged
  have loaded : (load (.text aliasedText)).toOption = some
      [.map [(.text "a", .map [(.text "name", .text "x")]), (.text "apiVersion", .text "v1"),
        (.text "kind", .text "ConfigMap"), (.text "metadata", .map [(.text "name", .text "x")])]] :=
    by decide +kernel
  have built : ((build false (Cluster.discovery (.text "default")) (.text "test")
      (.text aliasedText)).toOption.map (List.map fun ref => ref.body.field "a")) =
        some [.map [(.text "name", .text "x"), (.text "namespace", .text "test")]] := by
    decide +kernel
  obtain ⟨refs, hrefs, hfields⟩ := Option.map_eq_some_iff.mp built
  have same := unchanged _ _ _ _ refs (toOption_eq_some_iff.mp loaded) (by decide)
    (toOption_eq_some_iff.mp hrefs)
  have fields := congrArg (List.map (Value.field · "a")) same
  rw [List.map_map] at fields
  rw [show refs.map ((Value.field · "a") ∘ Ref.body) = _ from hfields] at fields
  revert fields
  decide +kernel

end Reconciler.Manifest

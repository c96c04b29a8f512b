import Reconciler.Proofs.Manifest.Checking

/-!
# References and the objects in their bodies

A reference says beside its body which object it stands for. The API version, the kind and the
name are read from the object and never written, so they are those in the body. The namespace of
an object in one is written to the reference and to the body. The reference of an object of the
whole cluster has no namespace, but nothing is taken from the body: that has a namespace if the
manifest gives one, or if the object shares its metadata with one to which a namespace is written.
Main statement: what a reference and its body agree on, for every build.
-/

namespace Reconciler

namespace Cluster

theorem field_writeMetadata {name : String} (other : "metadata" ≠ name) (object : Value)
    (field : String) (value : Value) :
    (writeMetadata object field value).field name = object.field name := by
  simp only [Value.field, writeMetadata, Value.members_map, Members.field?_put, if_neg other]

theorem metadataField_writeMetadata_of_ne {field name : String} (other : field ≠ name)
    (object value : Value) :
    metadataField (writeMetadata object field value) name = metadataField object name := by
  simp [metadataField, writeMetadata, Members.field?_put, other]

end Cluster

namespace Manifest

open Reconciler.Tree

/-- Whether an object has a namespace among its metadata. -/
def hasSpace (object : Value) : Bool :=
  (Members.field? (object.field "metadata").members "namespace").isSome

/-- The metadata of an object is one to which a namespace is written. -/
def SharesSpace (discovery : Discovery) (space : Value) (writes : Writes) (objects : List Tree)
    (object : Tree) : Prop :=
  ∃ write ∈ spaceWrites discovery space writes objects,
    (object.member? writes "metadata").bind mark? = some write.mark

/-- A reference names the object in its body. -/
structure NamesBody (discovery : Discovery) (space : Value) (writes : Writes)
    (objects : List Tree) (object : Tree) (ref : Ref) : Prop where
  apiVersion : ref.body.field "apiVersion" = ref.apiVersion
  kind : ref.body.field "kind" = ref.kind
  name : Cluster.metadataField ref.body "name" = ref.name
  served : (discovery.scope? ref.apiVersion ref.kind).isSome
  /-- The namespace of an object in one is that of its body. -/
  inNamespace : discovery.scope? ref.apiVersion ref.kind = some .inNamespace →
    Cluster.metadataField ref.body "namespace" = ref.space
  /-- An object of the whole cluster has no namespace, but its body keeps one that it is given. -/
  clusterWide : discovery.scope? ref.apiVersion ref.kind = some .clusterWide →
    ref.space = .null ∧ (hasSpace ref.body ↔
      hasSpace (object.value writes) ∨ SharesSpace discovery space writes objects object)

variable {discovery : Discovery} {space : Value} {writes later : Writes} {object metadata : Tree}
  {objects : List Tree}

/-! ### Reading an object after all writes -/

theorem field_append (isMap : object.isMap) (spaces : AreSpaces later) {name : String}
    (other : "namespace" ≠ name) (plain : ((object.value writes).field name).isLeaf) :
    (object.value (writes ++ later)).field name = (object.value writes).field name := by
  rw [← get_eq_field isMap]
  exact get_of_areSpaces isMap spaces other plain

/-- Namespaces that are written leave the object its metadata. -/
theorem member?_metadata_append (spaces : AreSpaces later)
    (found : object.member? writes "metadata" = some metadata) :
    object.member? (writes ++ later) "metadata" = some metadata := by
  rw [← found]
  exact member?_append (fun write hmem _ => spaces write hmem ▸ by decide) writes

theorem metadataField_append (isMap : object.isMap)
    (found : object.member? writes "metadata" = some metadata) (hmap : metadata.isMap)
    (spaces : AreSpaces later) {name : String} (other : "namespace" ≠ name)
    (plain : (Cluster.metadataField (object.value writes) name).isLeaf) :
    Cluster.metadataField (object.value (writes ++ later)) name =
      Cluster.metadataField (object.value writes) name := by
  rw [metadataField_eq isMap found] at plain ⊢
  rw [metadataField_eq isMap (member?_metadata_append spaces found)]
  exact field_append hmap spaces other plain

theorem hasSpace_value (isMap : object.isMap)
    (found : object.member? writes "metadata" = some metadata) (hmap : metadata.isMap) :
    hasSpace (object.value writes) = (metadata.member? writes "namespace").isSome := by
  rw [hasSpace, field_metadata isMap found, ← map_member? hmap, Option.isSome_map]

/-- Metadata has a namespace once others have been written if it had one before, or if one was
written to it. -/
theorem hasSpace_append (isMap : object.isMap)
    (found : object.member? writes "metadata" = some metadata) (hmap : metadata.isMap)
    (spaces : AreSpaces later) : hasSpace (object.value (writes ++ later)) ↔
      hasSpace (object.value writes) ∨ ∃ write ∈ later, metadata.mark? = some write.mark := by
  rw [hasSpace_value isMap (member?_metadata_append spaces found) hmap,
    hasSpace_value isMap found hmap]
  by_cases touched : ∃ write ∈ later, metadata.mark? = some write.mark
  · obtain ⟨write, hmem, hmark⟩ := touched
    refine iff_of_true ?_ (.inr ⟨write, hmem, hmark⟩)
    cases metadata with
    | map mark own =>
      obtain rfl : mark = some write.mark := hmark
      have last : (Writes.last? later write.mark "namespace").isSome := by
        rw [Option.isSome_iff_ne_none]
        exact fun none => Writes.last?_eq_none_iff.mp none write hmem rfl (spaces write hmem)
      obtain ⟨value, hvalue⟩ := Option.isSome_iff_exists.mp last
      rw [member?, Writes.last?_append, hvalue]
      rfl
    | _ => cases hmap
  · rw [member?_append fun write hmem hmark => absurd ⟨write, hmem, hmark⟩ touched]
    exact (or_iff_left touched).symm

/-! ### The reference of an object -/

/-- A namespace that is written leaves the other fields as they are. -/
theorem field_placed {name : String} (other : "metadata" ≠ name) (namespaced : Bool)
    (object space : Value) :
    (if namespaced then Cluster.writeMetadata object "namespace" space else object).field name =
      object.field name := by
  cases namespaced with
  | true => exact Cluster.field_writeMetadata other object "namespace" space
  | false => rfl

theorem metadataField_placed {name : String} (other : "namespace" ≠ name) (namespaced : Bool)
    (object space : Value) :
    Cluster.metadataField
        (if namespaced then Cluster.writeMetadata object "namespace" space else object) name =
      Cluster.metadataField object name := by
  cases namespaced with
  | true => exact Cluster.metadataField_writeMetadata_of_ne other object space
  | false => rfl

/-- The body of a reference is its object after all writes, up to the namespace. -/
theorem body_draftOf (loaded : AreLoaded objects writes) (h : object ∈ objects)
    (own : HasOwnSpace discovery space writes objects object)
    (bindable : IsBindable discovery (object.value writes)) :
    (placedTree discovery space writes object).value
        (writes ++ spaceWrites discovery space writes objects) =
      if isNamespaced discovery (object.value writes) then
        Cluster.writeMetadata
          (object.value (writes ++ spaceWrites discovery space writes objects)) "namespace"
          (spaceOf discovery space (object.value writes))
      else object.value (writes ++ spaceWrites discovery space writes objects) := by
  split
  · rename_i namespaced
    exact value_placedTree loaded h own bindable namespaced
  · rename_i clusterWide
    rw [placedTree, if_neg clusterWide]

/-- The reference to which an object is bound names the object in its body. -/
theorem namesBody_draftOf (loaded : AreLoaded objects writes) (h : object ∈ objects)
    (plain : IsPlain discovery space writes objects object)
    (bindable : IsBindable discovery (object.value writes)) :
    NamesBody discovery space writes objects object
      ((draftOf discovery space writes object).ref
        (writes ++ spaceWrites discovery space writes objects)) := by
  have isMap := loaded.isMap object h
  obtain ⟨mark, members, shared, own, rfl, hfind⟩ := exists_metadata loaded h bindable
  have found : (Tree.map mark members).member? writes "metadata" = some (.map shared own) :=
    (member?_eq_find? loaded.written).trans hfind
  have names := plain.names
  simp only [hasPlainNames, Bool.and_eq_true] at names
  obtain ⟨⟨plainVersion, plainKind⟩, plainName⟩ := names
  have spaces : AreSpaces (spaceWrites discovery space writes objects) :=
    fun _ => name_of_mem_spaceWrites
  have version := field_append isMap spaces (by decide) plainVersion
  have kind := field_append isMap spaces (by decide) plainKind
  have name := metadataField_append isMap found rfl spaces (by decide) plainName
  have body := body_draftOf loaded h plain.space bindable
  have scope : isNamespaced discovery ((Tree.map mark members).value writes) = true ↔
      discovery.scope? (((Tree.map mark members).value writes).field "apiVersion")
        (((Tree.map mark members).value writes).field "kind") = some .inNamespace := beq_iff_eq
  refine ⟨?_, ?_, ?_, bindable.served, fun inNamespace => ?_, fun clusterWide => ?_⟩
  · rw [Draft.ref, draftOf, body, field_placed (by decide), version]
    rfl
  · rw [Draft.ref, draftOf, body, field_placed (by decide), kind]
    rfl
  · rw [Draft.ref, draftOf, body, metadataField_placed (by decide), name]
    rfl
  · have namespaced := scope.mpr inNamespace
    rw [Draft.ref, draftOf, body, if_pos namespaced, Cluster.metadataField_writeMetadata, refOf,
      if_pos namespaced]
  · have outside : ¬isNamespaced discovery ((Tree.map mark members).value writes) = true := by
      intro namespaced
      cases clusterWide.symm.trans (scope.mp namespaced)
    refine ⟨if_neg outside, ?_⟩
    rw [Draft.ref, draftOf, body, if_neg outside, hasSpace_append isMap found rfl spaces,
      SharesSpace, found]
    rfl

/-! ### The manifest -/

/-- Each reference that a build gives names the object in its body. An object of the whole cluster
has no namespace in its reference, and one in its body only if the manifest gives it one or it
shares its metadata with an object in a namespace. -/
theorem build_names_bodies {isStrict : Bool} {source : Source}
    (plain : HasPlainObjects discovery space source) {refs : RefSet}
    (h : build isStrict discovery space source = .ok refs) :
    ∃ objects writes, loadTrees source = .ok (objects, writes) ∧
      List.Forall₂ (NamesBody discovery space writes objects) objects refs := by
  have lenient : build false discovery space source = .ok refs := by
    cases isStrict with
    | true => exact build_lenient_of_strict h
    | false => exact h
  obtain ⟨objects, writes, hload, bindable, -, rfl⟩ := (build_eq_ok_iff plain).mp lenient
  refine ⟨objects, writes, hload, List.forall₂_map_right_iff.mpr ?_⟩
  exact List.forall₂_same.mpr fun object hobject =>
    namesBody_draftOf (areLoaded_of_loadTrees hload) hobject
      (plain objects writes hload object hobject) (bindable object hobject)

/-- A manifest with an object of the whole cluster and one in a namespace. -/
def teamText : String :=
  "apiVersion: v1\nkind: Namespace\nmetadata:\n  name: team\n---\n" ++
  "apiVersion: v1\nkind: ConfigMap\nmetadata:\n  name: x\n"

/-- The object of the whole cluster has no namespace, neither in its reference nor in its body. -/
theorem build_names_team :
    HasPlainObjects (Cluster.discovery (.text "default")) (.text "test") (.text teamText) ∧
    ∃ refs objects writes,
      build true (Cluster.discovery (.text "default")) (.text "test") (.text teamText) =
        .ok refs ∧
      refs.map Ref.space = [.null, .text "test"] ∧
      refs.map (fun ref => hasSpace ref.body) = [false, true] ∧
      loadTrees (.text teamText) = .ok (objects, writes) ∧
      List.Forall₂ (NamesBody (Cluster.discovery (.text "default")) (.text "test") writes objects)
        objects refs := by
  have loaded : (loadTrees (.text teamText)).toOption.any fun read =>
      read.1.all fun object => hasPlainNames (object.value read.2) &&
        (Cluster.metadataField (object.value read.2) "namespace").isLeaf := by
    decide +kernel
  have plain : HasPlainObjects (Cluster.discovery (.text "default")) (.text "test")
      (.text teamText) := by
    refine hasPlainObjects_of_isLeaf fun objects writes hload object hobject => ?_
    obtain ⟨read, hread, each⟩ := exists_of_any loaded
    obtain rfl := Except.ok.inj (hload.symm.trans hread)
    exact Bool.and_eq_true_iff.mp (List.all_eq_true.mp each object hobject)
  have built : (build true (Cluster.discovery (.text "default")) (.text "test")
      (.text teamText)).toOption.any fun refs =>
        refs.map Ref.space == [.null, .text "test"] &&
          refs.map (fun ref => hasSpace ref.body) == [false, true] := by decide +kernel
  obtain ⟨refs, hrefs, spaces⟩ := exists_of_any built
  rw [Bool.and_eq_true, beq_iff_eq, beq_iff_eq] at spaces
  obtain ⟨objects, writes, hload, each⟩ := build_names_bodies plain hrefs
  exact ⟨plain, refs, objects, writes, hrefs, spaces.1, spaces.2, hload, each⟩

/-- A manifest that gives a namespace to an object of the whole cluster. -/
def strayText : String :=
  "apiVersion: v1\nkind: Namespace\nmetadata:\n  name: team-a\n  namespace: stray\n"

/-- An object of the whole cluster keeps the namespace that its manifest gives it, which its
reference does not have. -/
theorem build_keeps_stray_space :
    ¬∀ (isStrict : Bool) (discovery : Discovery) (space : Value) (source : Source) (refs : RefSet),
      build isStrict discovery space source = .ok refs → ∀ ref ∈ refs,
        discovery.scope? ref.apiVersion ref.kind = some .clusterWide →
          ref.space = .null ∧ hasSpace ref.body = false := by
  intro bare
  have built : ((build false (Cluster.discovery (.text "default")) (.text "test")
      (.text strayText)).toOption.any fun refs => refs.any fun ref =>
        (Cluster.discovery (.text "default")).scope? ref.apiVersion ref.kind ==
          some .clusterWide && hasSpace ref.body) := by
    decide +kernel
  obtain ⟨refs, hrefs, some⟩ := exists_of_any built
  obtain ⟨ref, href, kept⟩ := List.any_eq_true.mp some
  rw [Bool.and_eq_true, beq_iff_eq] at kept
  have none := (bare _ _ _ _ refs hrefs ref href kept.1).2
  rw [none] at kept
  cases kept.2

end Manifest

end Reconciler

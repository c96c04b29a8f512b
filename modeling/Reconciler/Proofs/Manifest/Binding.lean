import Reconciler.Cluster.Store
import Reconciler.Manifest.Build
import Reconciler.Proofs.Value.Tree

/-!
# What an object is bound to

An object is bound by its API version, its kind, and the name and the namespace in its metadata.
Namespaces are written to the metadata of the objects while they are built one after another.
Metadata with a mark has other places as well, and what is written to it is seen there. So what an
object is bound to at its turn is described by what it was when it was loaded. The namespaces that
other objects have written by then do not matter, if none but its own was written to its metadata.
Main statement: at its turn, every such object is bound to what follows from it as it was loaded.
-/

namespace Reconciler

namespace Cluster

@[simp] theorem metadataField_writeMetadata (object : Value) (name : String) (value : Value) :
    metadataField (writeMetadata object name value) name = value := by
  simp [metadataField, writeMetadata]

end Cluster

namespace Value

theorem orElse_orElse (value other : Value) :
    (value.orElse other).orElse other = value.orElse other := by
  simp only [orElse]
  split <;> simp_all

end Value

namespace Manifest

open Reconciler.Tree

/-! ### What an object is bound to -/

/-- An object that can be bound: it has an API version, a kind that the cluster serves, and
metadata with a name. -/
structure IsBindable (discovery : Discovery) (object : Value) : Prop where
  apiVersion : (object.field "apiVersion").isTruthy
  kind : (object.field "kind").isTruthy
  metadata : (object.field "metadata").isMap
  name : (Cluster.metadataField object "name").isTruthy
  served : (discovery.scope? (object.field "apiVersion") (object.field "kind")).isSome

/-- Whether the kind of an object has its objects in namespaces. -/
def isNamespaced (discovery : Discovery) (object : Value) : Bool :=
  discovery.scope? (object.field "apiVersion") (object.field "kind") == some .inNamespace

/-- The namespace for an object: its own, or else the one given, or else the default. -/
def spaceOf (discovery : Discovery) (space object : Value) : Value :=
  (Cluster.metadataField object "namespace").orElse (space.orElse discovery.defaultSpace)

/-- The reference to which an object is bound. Its body is the object, with the namespace in its
metadata if it is in one. -/
def refOf (discovery : Discovery) (space object : Value) : Ref where
  name := Cluster.metadataField object "name"
  space := if isNamespaced discovery object then spaceOf discovery space object else .null
  kind := object.field "kind"
  apiVersion := object.field "apiVersion"
  body :=
    if isNamespaced discovery object then
      Cluster.writeMetadata object "namespace" (spaceOf discovery space object)
    else object

/-- Whether the API version, the kind and the name of an object are no collections. -/
def hasPlainNames (object : Value) : Bool :=
  (object.field "apiVersion").isLeaf && (object.field "kind").isLeaf &&
    (Cluster.metadataField object "name").isLeaf

/-! ### Namespaces that are written to shared metadata -/

/-- The object with its namespace, unless that is written to metadata with a mark. -/
def placedTree (discovery : Discovery) (space : Value) (writes : Writes) (object : Tree) : Tree :=
  if isNamespaced discovery (object.value writes) then
    match object.member? writes "metadata" with
    | some metadata =>
      (writeSpace writes (spaceOf discovery space (object.value writes)) object metadata).1
    | none => object
  else object

/-- The namespace of an object as it is written to metadata with a mark. -/
def sharedSpace? (discovery : Discovery) (space : Value) (writes : Writes) (object : Tree) :
    Option Write :=
  if isNamespaced discovery (object.value writes) then
    ((object.member? writes "metadata").bind mark?).map fun mark =>
      ⟨mark, "namespace", spaceOf discovery space (object.value writes)⟩
  else none

/-- All namespaces of objects that are written to metadata with a mark. -/
def spaceWrites (discovery : Discovery) (space : Value) (writes : Writes) (objects : List Tree) :
    Writes :=
  objects.filterMap (sharedSpace? discovery space writes)

/-- The draft to which an object is bound. -/
def draftOf (discovery : Discovery) (space : Value) (writes : Writes) (object : Tree) : Draft :=
  let ref := refOf discovery space (object.value writes)
  ⟨ref.name, ref.space, ref.kind, ref.apiVersion, placedTree discovery space writes object⟩

variable {discovery : Discovery} {space : Value} {writes later : Writes} {object metadata : Tree}
  {objects : List Tree}

theorem name_of_mem_spaceWrites {write : Write}
    (h : write ∈ spaceWrites discovery space writes objects) : write.name = "namespace" := by
  obtain ⟨object, -, hshared⟩ := List.mem_filterMap.mp h
  rw [sharedSpace?] at hshared
  split at hshared
  · obtain ⟨mark, -, rfl⟩ := Option.map_eq_some_iff.mp hshared
    rfl
  · cases hshared

/-! ### Reading an object while namespaces are written -/

/-- A member is read as it was before writes to other mappings than it has and to members of other
names. -/
theorem get_append {tree : Tree} (isMap : tree.isMap) {name : String}
    (h : ∀ write ∈ later, tree.mark? = some write.mark → write.name ≠ name)
    (apart : ∀ member, tree.member? writes name = some member →
      ∀ write ∈ later, ¬member.Carries write.mark) :
    tree.get (writes ++ later) name = (tree.value writes).field name := by
  rw [← get_eq_field isMap, Tree.get, Tree.get, member?_append h]
  cases found : tree.member? writes name with
  | none => rfl
  | some member =>
    exact congrArg (Value.ofOption ∘ some) (value_append member writes (apart member found))

/-- A member that is no collection has no mappings to which anything is written. -/
theorem apart_of_isLeaf {tree : Tree} (isMap : tree.isMap) {name : String}
    (plain : ((tree.value writes).field name).isLeaf) (member : Tree)
    (found : tree.member? writes name = some member) :
    ∀ write ∈ later, ¬member.Carries write.mark := by
  rw [← get_eq_field isMap, Tree.get, found] at plain
  exact fun write _ => not_carries_of_isLeaf plain write.mark

/-- The metadata of an object, as a tree and as a value. -/
theorem field_metadata (isMap : object.isMap)
    (found : object.member? writes "metadata" = some metadata) :
    (object.value writes).field "metadata" = metadata.value writes := by
  rw [Value.field, ← map_member? isMap, found]
  rfl

theorem metadataField_eq (isMap : object.isMap)
    (found : object.member? writes "metadata" = some metadata) (name : String) :
    Cluster.metadataField (object.value writes) name = (metadata.value writes).field name := by
  rw [← field_metadata isMap found]
  rfl

/-- Namespaces have been written, to the metadata of an object no other than its own, and none
within the namespace that it has. -/
structure WritesSpace (discovery : Discovery) (space : Value) (writes : Writes) (object : Tree)
    (later : Writes) : Prop where
  name : ∀ write ∈ later, write.name = "namespace"
  value : ∀ metadata mark, object.member? writes "metadata" = some metadata →
    metadata.mark? = some mark → ∀ write ∈ later, write.mark = mark →
      write.value = spaceOf discovery space (object.value writes)
  apart : isNamespaced discovery (object.value writes) → ∀ metadata own,
    object.member? writes "metadata" = some metadata →
    metadata.member? writes "namespace" = some own → ∀ write ∈ later, ¬own.Carries write.mark

theorem WritesSpace.name_ne (h : WritesSpace discovery space writes object later) {name : String}
    (other : "namespace" ≠ name) (mark? : Option Nat) :
    ∀ write ∈ later, mark? = some write.mark → write.name ≠ name :=
  fun write hmem _ => h.name write hmem ▸ other

/-- At its turn an object has the namespace that follows from what it was when it was loaded. -/
theorem orElse_get_namespace (isMap : object.isMap)
    (found : object.member? writes "metadata" = some metadata) (hmap : metadata.isMap)
    (written : WritesSpace discovery space writes object later)
    (namespaced : isNamespaced discovery (object.value writes)) :
    (metadata.get (writes ++ later) "namespace").orElse (space.orElse discovery.defaultSpace) =
      spaceOf discovery space (object.value writes) := by
  by_cases touched : ∃ write ∈ later, metadata.mark? = some write.mark
  · obtain ⟨write, hmem, hmark⟩ := touched
    cases metadata with
    | map mark members =>
      obtain rfl : mark = some write.mark := hmark
      have last := Writes.last?_eq_some writes ⟨write, hmem, rfl, written.name write hmem⟩
        (written.value _ _ found rfl)
      rw [Tree.get, member?, last]
      exact Value.orElse_orElse _ _
    | _ => cases hmap
  · have untouched : ∀ write ∈ later, metadata.mark? = some write.mark →
        write.name ≠ "namespace" := fun write hmem hmark => absurd ⟨write, hmem, hmark⟩ touched
    rw [get_append hmap untouched fun own hown => written.apart namespaced metadata own found hown,
      spaceOf, metadataField_eq isMap found]

/-! ### Binding one object -/

/-- The metadata of an object, or a tree without members if that is no mapping. -/
def metadataOf (writes : Writes) (object : Tree) : Tree :=
  ((object.member? writes "metadata").filter isMap).getD (.leaf .null)

theorem bind_eq_ok_iff {draft : Draft} {writes' : Writes} :
    bind discovery space writes object = .ok (draft, writes') ↔
      (object.get writes "apiVersion").isTruthy ∧ (object.get writes "kind").isTruthy ∧
      ((metadataOf writes object).get writes "name").isTruthy ∧
      match discovery.scope? (object.get writes "apiVersion") (object.get writes "kind") with
      | none => False
      | some .clusterWide => (draft, writes') =
        (⟨(metadataOf writes object).get writes "name", .null, object.get writes "kind",
          object.get writes "apiVersion", object⟩, writes)
      | some .inNamespace =>
        let space := ((metadataOf writes object).get writes "namespace").orElse
          (space.orElse discovery.defaultSpace)
        let placed := writeSpace writes space object (metadataOf writes object)
        (draft, writes') = (⟨(metadataOf writes object).get writes "name", space,
          object.get writes "kind", object.get writes "apiVersion", placed.1⟩, placed.2) := by
  unfold bind
  change (if (!(object.get writes "apiVersion").isTruthy || !(object.get writes "kind").isTruthy) =
    true then _ else _) = _ ↔ _
  by_cases hversion : (object.get writes "apiVersion").isTruthy
  · by_cases hkind : (object.get writes "kind").isTruthy
    · rw [if_neg (by simp [hversion, hkind])]
      change (if (!((metadataOf writes object).get writes "name").isTruthy) = true then _ else _) =
        _ ↔ _
      by_cases hname : ((metadataOf writes object).get writes "name").isTruthy
      · rw [if_neg (by simp [hname])]
        cases discovery.scope? (object.get writes "apiVersion") (object.get writes "kind") with
        | none => exact ⟨nofun, fun h => h.2.2.2.elim⟩
        | some scope =>
          cases scope with
          | clusterWide =>
            exact ⟨fun h => ⟨hversion, hkind, hname, (Except.ok.inj h).symm⟩,
              fun h => congrArg Except.ok h.2.2.2.symm⟩
          | inNamespace =>
            exact ⟨fun h => ⟨hversion, hkind, hname, (Except.ok.inj h).symm⟩,
              fun h => congrArg Except.ok h.2.2.2.symm⟩
      · rw [if_pos (by simp [hname])]
        exact ⟨nofun, fun h => absurd h.2.2.1 hname⟩
    · rw [if_pos (by simp [hkind])]
      exact ⟨nofun, fun h => absurd h.2.1 hkind⟩
  · rw [if_pos (by simp [hversion])]
    exact ⟨nofun, fun h => absurd h.1 hversion⟩

/-- An object that was loaded and whose names are no collections. -/
structure IsReadable (writes : Writes) (object : Tree) : Prop where
  isMap : object.isMap
  metadata : ∀ metadata, object.member? writes "metadata" = some metadata →
    ∀ later, (metadata.value later).isMap → metadata.isMap
  written : ∀ write ∈ writes, write.name ≠ "metadata"
  plain : hasPlainNames (object.value writes)

/-- The metadata of an object is a mapping of it, or there is none. -/
theorem metadataOf_cases (readable : IsReadable writes object) :
    (∃ metadata, object.member? writes "metadata" = some metadata ∧ metadata.isMap ∧
      metadataOf writes object = metadata ∧ ((object.value writes).field "metadata").isMap) ∨
    metadataOf writes object = .leaf .null ∧
      ((object.value writes).field "metadata").isMap = false := by
  rw [metadataOf]
  cases found : object.member? writes "metadata" with
  | none =>
    refine .inr ⟨rfl, ?_⟩
    rw [Value.field, ← map_member? readable.isMap, found]
    rfl
  | some metadata =>
    rw [field_metadata readable.isMap found]
    cases hmap : metadata.isMap with
    | true =>
      exact .inl ⟨metadata, rfl, hmap, by rw [Option.filter_some_pos hmap]; rfl,
        isMap_value hmap writes⟩
    | false =>
      refine .inr ⟨by simp [Option.filter_some, hmap], ?_⟩
      refine Bool.eq_false_iff.mpr fun h => ?_
      rw [readable.metadata metadata found writes h] at hmap
      cases hmap

/-- Writing a namespace changes the object, or it is kept beside the object. -/
theorem writeSpace_eq (hmap : metadata.isMap) (space : Value) (writes other : Writes)
    (object : Tree) : writeSpace other space object metadata =
      ((writeSpace writes space object metadata).1,
        other ++ (metadata.mark?.map fun mark => ⟨mark, "namespace", space⟩).toList) := by
  cases metadata with
  | map mark members =>
    cases mark <;> cases object <;> simp [writeSpace, Tree.write, mark?]
  | _ => cases hmap

/-- What an object is bound to where its kind is served. -/
theorem draftOf_eq (found : object.member? writes "metadata" = some metadata)
    (hmap : metadata.isMap) (later : Writes) :
    (draftOf discovery space writes object,
        later ++ (sharedSpace? discovery space writes object).toList) =
      if isNamespaced discovery (object.value writes) then
        let space := spaceOf discovery space (object.value writes)
        let placed := writeSpace later space object metadata
        (⟨Cluster.metadataField (object.value writes) "name", space,
          (object.value writes).field "kind", (object.value writes).field "apiVersion", placed.1⟩,
          placed.2)
      else (⟨Cluster.metadataField (object.value writes) "name", .null,
        (object.value writes).field "kind", (object.value writes).field "apiVersion", object⟩,
        later) := by
  simp only [draftOf, refOf, placedTree, sharedSpace?, found, Option.bind_some]
  split
  · rw [writeSpace_eq hmap _ writes later]
  · rw [Option.toList_none, List.append_nil]

/-- An object is bound at its turn exactly if it can be, and to what follows from what it was when
it was loaded. Its namespace is kept beside it if its metadata has a mark. -/
theorem bind_append_eq_ok_iff (readable : IsReadable writes object)
    (written : WritesSpace discovery space writes object later) {draft : Draft}
    {writes' : Writes} :
    bind discovery space (writes ++ later) object = .ok (draft, writes') ↔
      IsBindable discovery (object.value writes) ∧
        (draft, writes') = (draftOf discovery space writes object,
          writes ++ later ++ (sharedSpace? discovery space writes object).toList) := by
  have plain := readable.plain
  simp only [hasPlainNames, Bool.and_eq_true] at plain
  obtain ⟨⟨plainVersion, plainKind⟩, plainName⟩ := plain
  have hmetadata : metadataOf (writes ++ later) object = metadataOf writes object := by
    rw [metadataOf, metadataOf, member?_append (written.name_ne (by decide) _)]
  rw [bind_eq_ok_iff, hmetadata,
    get_append readable.isMap (written.name_ne (by decide) _)
      (apart_of_isLeaf readable.isMap plainVersion),
    get_append readable.isMap (written.name_ne (by decide) _)
      (apart_of_isLeaf readable.isMap plainKind)]
  rcases metadataOf_cases readable with ⟨metadata, found, hmap, heq, isMap⟩ | ⟨heq, noMap⟩
  · have name : metadata.get (writes ++ later) "name" =
        Cluster.metadataField (object.value writes) "name" := by
      rw [metadataField_eq readable.isMap found] at plainName ⊢
      exact get_append hmap (written.name_ne (by decide) _) (apart_of_isLeaf hmap plainName)
    rw [heq, name, draftOf_eq found hmap]
    cases hscope : discovery.scope? ((object.value writes).field "apiVersion")
        ((object.value writes).field "kind") with
    | none =>
      constructor
      · exact fun h => h.2.2.2.elim
      · intro h
        have served := h.1.served
        rw [hscope] at served
        cases served
    | some scope =>
      have bindable : IsBindable discovery (object.value writes) ↔
          ((object.value writes).field "apiVersion").isTruthy ∧
          ((object.value writes).field "kind").isTruthy ∧
          (Cluster.metadataField (object.value writes) "name").isTruthy :=
        ⟨fun h => ⟨h.apiVersion, h.kind, h.name⟩,
          fun ⟨version, kind, name⟩ => ⟨version, kind, isMap, name, by rw [hscope]; rfl⟩⟩
      rw [bindable, and_assoc, and_assoc]
      cases scope with
      | clusterWide =>
        rw [if_neg (by simp [isNamespaced, hscope])]
      | inNamespace =>
        have namespaced : isNamespaced discovery (object.value writes) := by
          simp [isNamespaced, hscope]
        rw [if_pos namespaced, orElse_get_namespace readable.isMap found hmap written namespaced]
  · rw [heq]
    exact ⟨fun h => (nomatch h.2.2.1), fun h => absurd h.1.metadata (by simp [noMap])⟩

end Manifest

end Reconciler

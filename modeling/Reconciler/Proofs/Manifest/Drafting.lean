import Reconciler.Proofs.Manifest.Binding
import Reconciler.Proofs.Schema.Undeclared

/-!
# What a draft has of its object

A draft is the object from which it is made, up to its metadata, and all that has been written for
it is a namespace in that metadata. So whatever has been written before, the members of a draft
that are no collections are those of the object as it was loaded, and so are its keys.
-/

namespace Reconciler

namespace Value

theorem all_isText_put (members : Members) (name : String) (value : Value) :
    ((members.put (.text name) value).all fun member => member.1.isText) =
      members.all fun member => member.1.isText := by
  induction members with
  | nil => rfl
  | cons member rest ih =>
    obtain ⟨key, old⟩ := member
    rw [Members.put]
    split
    · rfl
    · rw [List.all_cons, List.all_cons, ih]

end Value

namespace Tree

variable {writes : Writes} {object metadata : Tree}

/-! ### Text keys -/

theorem all_isText_apply (writes : Writes) (mark : Nat) (members : Members) :
    ((writes.apply mark members).all fun member => member.1.isText) =
      members.all fun member => member.1.isText := by
  induction writes generalizing members with
  | nil => rfl
  | cons write rest ih =>
    rw [Writes.apply_cons, ih]
    split
    · exact Value.all_isText_put members write.name write.value
    · rfl

theorem all_isText_memberValues (writes : Writes) (members : List (Value × Tree)) :
    ((memberValues writes members).all fun member => member.1.isText) =
      members.all fun member => member.1.isText := by
  induction members with
  | nil =>
    rw [memberValues]
    rfl
  | cons member rest ih => rw [memberValues, List.all_cons, List.all_cons, ih]

/-- What is written to a mapping has text keys. -/
theorem hasTextKeys_value (mark : Option Nat) (members : List (Value × Tree)) (writes : Writes) :
    ((Tree.map mark members).value writes).hasTextKeys =
      members.all fun member => member.1.isText := by
  cases mark with
  | none =>
    rw [value, Value.hasTextKeys, Value.members_map, all_isText_memberValues]
  | some mark =>
    rw [value, Value.hasTextKeys, Value.members_map, all_isText_apply, all_isText_memberValues]

theorem all_isText_put (members : List (Value × Tree)) (name : String) (tree : Tree) :
    ((put members (.text name) tree).all fun member => member.1.isText) =
      members.all fun member => member.1.isText := by
  induction members with
  | nil => rfl
  | cons member rest ih =>
    obtain ⟨key, old⟩ := member
    rw [put]
    split
    · rfl
    · rw [List.all_cons, List.all_cons, ih]

end Tree

namespace Manifest

open Reconciler.Tree

variable {discovery : Discovery} {space : Value} {writes writes' later : Writes}
  {object metadata : Tree} {draft : Draft}

/-- Only a mapping has members. -/
theorem isMap_of_get {tree : Tree} {name : String} (h : (tree.get writes name).isTruthy) :
    tree.isMap := by
  cases tree with
  | map mark members => rfl
  | _ => cases h

/-! ### Where a namespace is placed -/

theorem isMap_writeSpace (isMap : object.isMap) (space : Value) (writes : Writes)
    (metadata : Tree) : (writeSpace writes space object metadata).1.isMap := by
  cases object with
  | map mark members => rfl
  | _ => cases isMap

/-- All members of an object but its metadata stay when its namespace is placed. -/
theorem member?_writeSpace {name : String} (other : "metadata" ≠ name) (space : Value)
    (writes all : Writes) (object metadata : Tree) :
    (writeSpace writes space object metadata).1.member? all name = object.member? all name := by
  cases object with
  | map mark members =>
    cases mark with
    | none =>
      rw [writeSpace, member?, member?]
      exact find?_put_of_ne other members _
    | some mark =>
      rw [writeSpace, member?, member?, find?_put_of_ne other members]
  | _ => rfl

theorem hasTextKeys_writeSpace (isMap : object.isMap) (space : Value)
    (writes all : Writes) (metadata : Tree) :
    ((writeSpace writes space object metadata).1.value all).hasTextKeys =
      (object.value writes).hasTextKeys := by
  cases object with
  | map mark members =>
    rw [writeSpace, hasTextKeys_value, hasTextKeys_value, all_isText_put]
  | _ => cases isMap

/-! ### Drafts -/

/-- What a draft has of the object from which it is made: its names, and the object itself, perhaps
with a namespace placed in its metadata. -/
structure IsDraftOf (discovery : Discovery) (writes : Writes) (object : Tree) (draft : Draft)
    (writes' : Writes) : Prop where
  apiVersion : (object.get writes "apiVersion").isTruthy
  kind : (object.get writes "kind").isTruthy
  name : ((metadataOf writes object).get writes "name").isTruthy
  draftKind : draft.kind = object.get writes "kind"
  draftName : draft.name = (metadataOf writes object).get writes "name"
  placed : draft.object = object ∧ writes' = writes ∨
    discovery.scope? (object.get writes "apiVersion") (object.get writes "kind") =
      some .inNamespace ∧
    ∃ space, (draft.object, writes') = writeSpace writes space object (metadataOf writes object)

theorem isDraftOf_bind (h : bind discovery space writes object = .ok (draft, writes')) :
    IsDraftOf discovery writes object draft writes' := by
  obtain ⟨version, kind, name, h⟩ := bind_eq_ok_iff.mp h
  split at h
  · exact h.elim
  · obtain ⟨rfl, rfl⟩ := Prod.mk.inj h
    exact ⟨version, kind, name, rfl, rfl, .inl ⟨rfl, rfl⟩⟩
  · rename_i hscope
    obtain ⟨rfl, rfl⟩ := Prod.mk.inj h
    exact ⟨version, kind, name, rfl, rfl, .inr ⟨hscope, _, rfl⟩⟩

/-- All that is written for a draft is a namespace, to the metadata of its object. -/
theorem IsDraftOf.exists_own (h : IsDraftOf discovery writes object draft writes') :
    ∃ own : Writes, writes' = writes ++ own ∧ ∀ write ∈ own, write.name = "namespace" ∧
      (metadataOf writes object).mark? = some write.mark ∧
      discovery.scope? (object.get writes "apiVersion") (object.get writes "kind") =
        some .inNamespace := by
  rcases h.placed with ⟨-, rfl⟩ | ⟨hscope, space, hplaced⟩
  · exact ⟨[], (List.append_nil _).symm, List.forall_mem_nil _⟩
  · have hwrites := congrArg Prod.snd hplaced
    rw [writeSpace_eq (isMap_of_get h.name) space writes writes object] at hwrites
    refine ⟨_, hwrites, fun write hmem => ?_⟩
    obtain ⟨mark, hmark, rfl⟩ := Option.map_eq_some_iff.mp (Option.mem_toList.mp hmem)
    exact ⟨rfl, hmark, hscope⟩

theorem IsDraftOf.isMap (h : IsDraftOf discovery writes object draft writes')
    (isMap : object.isMap) : draft.object.isMap := by
  rcases h.placed with ⟨heq, -⟩ | ⟨-, space, hplaced⟩
  · rw [heq]
    exact isMap
  · rw [show draft.object = _ from congrArg Prod.fst hplaced]
    exact isMap_writeSpace isMap ..

theorem IsDraftOf.member? (h : IsDraftOf discovery writes object draft writes') {name : String}
    (other : "metadata" ≠ name) (all : Writes) :
    draft.object.member? all name = object.member? all name := by
  rcases h.placed with ⟨heq, -⟩ | ⟨-, space, hplaced⟩
  · rw [heq]
  · rw [show draft.object = _ from congrArg Prod.fst hplaced]
    exact member?_writeSpace other ..

theorem IsDraftOf.hasTextKeys (h : IsDraftOf discovery writes object draft writes')
    (isMap : object.isMap) (all other : Writes) :
    (draft.object.value all).hasTextKeys = (object.value other).hasTextKeys := by
  cases object with
  | map mark members =>
    rw [hasTextKeys_value]
    rcases h.placed with ⟨heq, -⟩ | ⟨-, space, hplaced⟩
    · rw [heq, hasTextKeys_value]
    · rw [show draft.object = _ from congrArg Prod.fst hplaced, hasTextKeys_writeSpace isMap,
        hasTextKeys_value]
  | _ => cases isMap

/-! ### Objects at their turn -/

/-- Before the turn of an object, nothing but namespaces has been written. -/
def AreSpaces (writes : Writes) : Prop := ∀ write ∈ writes, write.name = "namespace"

/-- A member that is no collection is at any turn as it was when the object was loaded. -/
theorem get_of_areSpaces (isMap : object.isMap) (spaces : AreSpaces later) {name : String}
    (other : "namespace" ≠ name) (plain : ((object.value writes).field name).isLeaf) :
    object.get (writes ++ later) name = (object.value writes).field name :=
  get_append isMap (fun write hmem _ => spaces write hmem ▸ other) (apart_of_isLeaf isMap plain)

theorem metadataOf_append (spaces : AreSpaces later) (writes : Writes) (object : Tree) :
    metadataOf (writes ++ later) object = metadataOf writes object := by
  rw [metadataOf, metadataOf,
    member?_append fun write hmem _ => spaces write hmem ▸ (by decide)]

theorem metadataOf_eq_some (h : (metadataOf writes object).isMap) :
    object.member? writes "metadata" = some (metadataOf writes object) := by
  rw [metadataOf] at h ⊢
  cases found : object.member? writes "metadata" with
  | none =>
    rw [found] at h
    cases h
  | some metadata =>
    rw [found, Option.filter_some] at h
    split at h
    · rename_i isMap
      rw [Option.filter_some_pos isMap]
      rfl
    · cases h

/-- The metadata of an object that has been bound, as a tree. -/
theorem IsDraftOf.metadata_found (h : IsDraftOf discovery (writes ++ later) object draft writes')
    (spaces : AreSpaces later) :
    object.member? writes "metadata" = some (metadataOf writes object) ∧
      (metadataOf writes object).isMap := by
  have there := isMap_of_get h.name
  rw [metadataOf_append spaces] at there
  exact ⟨metadataOf_eq_some there, there⟩

theorem IsDraftOf.areSpaces (h : IsDraftOf discovery (writes ++ later) object draft writes')
    (spaces : AreSpaces later) : ∃ all, AreSpaces all ∧ writes' = writes ++ all := by
  obtain ⟨own, rfl, hown⟩ := h.exists_own
  refine ⟨later ++ own, fun write hmem => ?_, List.append_assoc ..⟩
  exact (List.mem_append.mp hmem).elim (spaces write) fun hmem => (hown write hmem).1

/-- A member of a draft that is no collection is that of the object as it was loaded. -/
theorem IsDraftOf.field (h : IsDraftOf discovery (writes ++ later) object draft writes')
    (spaces : AreSpaces later) (isMap : object.isMap) {name : String} (other : "metadata" ≠ name)
    (apart : "namespace" ≠ name) (plain : ((object.value writes).field name).isLeaf) :
    (draft.object.value writes').field name = (object.value writes).field name := by
  obtain ⟨all, hall, rfl⟩ := h.areSpaces spaces
  rw [← get_eq_field (h.isMap isMap), Tree.get, h.member? other, ← Tree.get]
  exact get_of_areSpaces isMap hall apart plain

/-- The kind of a draft is known by the object as it was loaded. -/
theorem IsDraftOf.lookupObject (h : IsDraftOf discovery (writes ++ later) object draft writes')
    (spaces : AreSpaces later) (isMap : object.isMap)
    (version : ((object.value writes).field "apiVersion").isLeaf)
    (kind : ((object.value writes).field "kind").isLeaf) :
    Schema.lookupObject (draft.object.value writes') =
      Schema.lookupObject (object.value writes) := by
  rw [Schema.lookupObject_eq (isMap_value (h.isMap isMap) _),
    Schema.lookupObject_eq (isMap_value isMap _),
    h.field spaces isMap (by decide) (by decide) version,
    h.field spaces isMap (by decide) (by decide) kind]

/-! ### One step of a build -/

/-- What a build finds undeclared in an object. Only a strict one looks for it. -/
def foundIn (isStrict : Bool) (object : Value) : Except Failure (List String) :=
  if isStrict then liftFault (undeclaredPaths object) else .ok []

/-- Add a draft, or what is undeclared in it. -/
def Progress.take (progress : Progress) (draft : Draft) (paths : List String) :
    Except Failure Progress :=
  if paths.isEmpty then progress.add draft
  else .ok { progress with
    undeclared := progress.undeclared ++ [⟨draft.kind, draft.name, paths⟩] }

variable {isStrict : Bool} {progress next : Progress}

/-- An object is bound, looked through and taken in. -/
theorem step_eq (isStrict : Bool) (discovery : Discovery) (space : Value) (progress : Progress)
    (object : Tree) : progress.step isStrict discovery space object =
      bind discovery space progress.writes object >>= fun bound =>
        foundIn isStrict (bound.1.object.value bound.2) >>= fun paths =>
          ({ progress with writes := bound.2 } : Progress).take bound.1 paths := by
  cases isStrict <;> rfl

theorem writes_take {paths : List String} (h : progress.take draft paths = .ok next) :
    next.writes = progress.writes := by
  rw [Progress.take] at h
  split at h
  · unfold Progress.add at h
    dsimp only at h
    split at h
    · cases h
    · cases h
      rfl
  · cases h
    rfl

/-- What a step that succeeds has done. -/
theorem exists_draft_of_step (h : progress.step isStrict discovery space object = .ok next) :
    ∃ draft paths, bind discovery space progress.writes object = .ok (draft, next.writes) ∧
      foundIn isStrict (draft.object.value next.writes) = .ok paths ∧
      ({ progress with writes := next.writes } : Progress).take draft paths = .ok next := by
  rw [step_eq] at h
  obtain ⟨⟨draft, writes'⟩, hbind, h⟩ := Reconciler.bind_eq_ok.mp h
  obtain ⟨paths, hpaths, htake⟩ := Reconciler.bind_eq_ok.mp h
  obtain rfl := writes_take htake
  exact ⟨draft, paths, hbind, hpaths, htake⟩

end Manifest

end Reconciler

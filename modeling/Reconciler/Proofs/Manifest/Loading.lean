import Reconciler.Manifest.Load
import Reconciler.Proofs.Yaml.Constructing

/-!
# The objects of a manifest

The objects that a manifest describes are mappings of its documents, perhaps with a kind and an
API version from the list in which they stand. Main statement: the objects of every manifest that
loads are mappings, what has been written to them is at most their kind and their API version, and
their places with one mark hold one tree.
-/

namespace Reconciler.Manifest

open Reconciler.Tree

variable {writes writes' : Writes} {item object tree : Tree}

/-- An object is a mapping of a document, up to members that have been written to it and are not
its metadata. -/
structure Extends (item object : Tree) : Prop where
  isMap : object.isMap
  metadata (writes : Writes) (h : ∀ write ∈ writes, write.name ≠ "metadata") :
    object.member? writes "metadata" = item.member? writes "metadata"
  marked : ∀ (part : Tree) (mark : Nat), part.IsIn object → part.mark? = some mark → part.IsIn item

theorem extends_self (h : tree.isMap) : Extends tree tree := ⟨h, fun _ _ => rfl, fun _ _ h _ => h⟩

theorem Extends.write (h : Extends item object) {name : String} (other : name ≠ "metadata")
    (writes : Writes) (value : Value) : Extends item (object.write writes name value).1 := by
  cases object with
  | map mark members =>
    cases mark with
    | some mark => exact h
    | none =>
      refine ⟨rfl, fun writes apart => ?_, fun part mark within marked => ?_⟩
      · rw [← h.metadata writes apart, Tree.write, member?, member?, find?_put_of_ne other]
      · cases within with
        | self => cases marked
        | member mem within =>
          rcases mem_put mem with rfl | mem
          · cases within
            cases marked
          · exact h.marked part mark (.member mem within) marked
  | _ => cases h.isMap

theorem Extends.writeDefault (h : Extends item object) {name : String} (other : name ≠ "metadata")
    (writes : Writes) (value : Value) : Extends item (object.writeDefault writes name value).1 := by
  rw [Tree.writeDefault]
  split
  · exact h
  · exact h.write other writes value

/-- Whether a write gives an object its kind or its API version. -/
def isDefault (write : Write) : Bool := write.name == "kind" || write.name == "apiVersion"

/-- All that has been written since are defaults of objects. -/
def Defaults (writes writes' : Writes) : Prop :=
  ∀ write ∈ writes', write ∈ writes ∨ isDefault write

theorem Defaults.trans {writes'' : Writes} (h : Defaults writes writes')
    (h' : Defaults writes' writes'') : Defaults writes writes'' := fun write hmem =>
  (h' write hmem).elim (h write) .inr

theorem defaults_refl (writes : Writes) : Defaults writes writes := fun _ => .inl

theorem defaults_writeDefault {name : String} (h : name = "kind" ∨ name = "apiVersion")
    (writes : Writes) (value : Value) (tree : Tree) :
    Defaults writes (tree.writeDefault writes name value).2 := by
  rw [Tree.writeDefault]
  split
  · exact defaults_refl writes
  · cases tree with
    | map mark members =>
      cases mark with
      | none => exact defaults_refl writes
      | some mark =>
        intro write hmem
        refine (List.mem_append.mp hmem).imp_right fun hnew => ?_
        obtain rfl := List.mem_singleton.mp hnew
        rcases h with rfl | rfl <;> rfl
    | _ => exact defaults_refl writes

theorem writeDefaults_spec (position : Position) (writes : Writes) (h : tree.isMap) :
    Extends tree (position.writeDefaults writes tree).1 ∧
      Defaults writes (position.writeDefaults writes tree).2 := by
  cases position with
  | document => exact ⟨extends_self h, defaults_refl writes⟩
  | item kind apiVersion =>
    rw [Position.writeDefaults]
    split
    · exact ⟨extends_self h, defaults_refl writes⟩
    · exact ⟨((extends_self h).writeDefault (by decide) _ _).writeDefault (by decide) _ _,
        Defaults.trans (defaults_writeDefault (.inl rfl) _ _ _)
          (defaults_writeDefault (.inr rfl) _ _ _)⟩

/-- Objects come from given trees, and all that has been written are their defaults. -/
structure ComesFrom (source : Tree → Prop) (writes : Writes) (objects : List Tree)
    (writes' : Writes) : Prop where
  items : ∀ object ∈ objects, ∃ item, source item ∧ Extends item object
  written : Defaults writes writes'

theorem ComesFrom.mono {source other : Tree → Prop} {objects : List Tree}
    (h : ComesFrom source writes objects writes') (wider : ∀ tree, source tree → other tree)
    {earlier : Writes} (written : Defaults earlier writes) :
    ComesFrom other earlier objects writes' where
  items object hobject :=
    (h.items object hobject).imp fun item ⟨hsource, extended⟩ => ⟨wider item hsource, extended⟩
  written := written.trans h.written

mutual

/-- The objects of a document are mappings in it. -/
theorem comesFrom_flatten {position : Position} {writes writes' : Writes} {tree : Tree}
    {objects : List Tree} (h : flatten position writes tree = .ok (objects, writes')) :
    ComesFrom (·.IsIn tree) writes objects writes' := by
  cases tree with
  | map mark members =>
    have isMap : (Tree.map mark members).isMap := rfl
    obtain ⟨extended, written⟩ := writeDefaults_spec position writes isMap
    rw [flatten] at h
    generalize position.writeDefaults writes (.map mark members) = defaulted at h extended written
    obtain ⟨object, later⟩ := defaulted
    have single : ComesFrom (·.IsIn (.map mark members)) writes [object] later := by
      refine ⟨fun other hother => ⟨_, .self, ?_⟩, written⟩
      exact List.mem_singleton.mp hother ▸ extended
    obtain ⟨kind, -, h⟩ := bind_eq_ok.mp h
    split at h
    · split at h
      · rename_i found
        refine (comesFrom_flattenItems (found.trans (congrArg some h))).mono ?_ written
        exact fun item ⟨member, hmember, within⟩ => .member hmember within
      · cases h
        exact single
    · cases h
      exact single
  | _ =>
    rw [flatten] at h
    · cases h
    · exact nofun

theorem comesFrom_flattenItems {position : Position} {writes writes' : Writes}
    {members : List (Value × Tree)} {objects : List Tree}
    (h : flattenItems position writes members = some (.ok (objects, writes'))) :
    ComesFrom (fun item => ∃ member ∈ members, item.IsIn member.2) writes objects writes' := by
  cases members with
  | nil =>
    rw [flattenItems] at h
    cases h
  | cons member rest =>
    obtain ⟨key, tree⟩ := member
    unfold flattenItems at h
    split at h
    · cases tree with
      | list items =>
        refine (comesFrom_flattenAll (Option.some.inj h)).mono ?_ (defaults_refl writes)
        exact fun item ⟨tree, htree, within⟩ =>
          ⟨_, List.mem_cons_self .., .item htree within⟩
      | _ => cases h
    · refine (comesFrom_flattenItems h).mono ?_ (defaults_refl writes)
      exact fun item ⟨member, hmember, within⟩ =>
        ⟨member, List.mem_cons_of_mem _ hmember, within⟩

theorem comesFrom_flattenAll {position : Position} {writes writes' : Writes} {trees : List Tree}
    {objects : List Tree} (h : flattenAll position writes trees = .ok (objects, writes')) :
    ComesFrom (fun item => ∃ tree ∈ trees, item.IsIn tree) writes objects writes' := by
  cases trees with
  | nil =>
    rw [flattenAll_nil] at h
    cases h
    exact ⟨nofun, defaults_refl writes⟩
  | cons tree rest =>
    rw [flattenAll] at h
    obtain ⟨⟨first, middle⟩, hfirst, h⟩ := bind_eq_ok.mp h
    obtain ⟨⟨others, last⟩, hothers, h⟩ := bind_eq_ok.mp h
    cases h
    have here := (comesFrom_flatten hfirst).mono (fun item within =>
      (⟨tree, List.mem_cons_self .., within⟩ : ∃ other ∈ tree :: rest, item.IsIn other))
      (defaults_refl writes)
    have there := (comesFrom_flattenAll hothers).mono (fun item ⟨other, hother, within⟩ =>
      (⟨other, List.mem_cons_of_mem _ hother, within⟩ :
        ∃ other ∈ tree :: rest, item.IsIn other)) here.written
    refine ⟨fun object hobject => ?_, there.written⟩
    exact (List.mem_append.mp hobject).elim (here.items object) (there.items object)

end

/-- The objects of a manifest as trees, with what has been written to them. -/
structure AreLoaded (objects : List Tree) (writes : Writes) : Prop where
  isMap : ∀ object ∈ objects, object.isMap
  /-- No metadata has been written. -/
  written : ∀ write ∈ writes, write.name ≠ "metadata"
  /-- Metadata that is a mapping is one for trees, too. -/
  metadata : ∀ object ∈ objects, ∀ metadata, object.member? writes "metadata" = some metadata →
    ∀ later, (metadata.value later).isMap → metadata.isMap
  /-- The places with one mark hold one tree. -/
  once : ∀ (x y : Tree) (mark : Nat), (∃ object ∈ objects, x.IsIn object) →
    (∃ object ∈ objects, y.IsIn object) → x.mark? = some mark → y.mark? = some mark → x = y

/-- The places with one mark hold one tree, in whatever documents of a manifest they are. -/
theorem coherent_of_documents {source : Source} {trees : List Tree}
    (h : documents source = .ok trees) : AreCoherent trees := by
  obtain ⟨text, -, h⟩ := bind_eq_ok.mp h
  obtain ⟨all, hread, h⟩ := bind_eq_ok.mp h
  cases h
  have coherent : AreCoherent all := by
    cases hparsed : Yaml.documents text with
    | error flaw =>
      rw [hparsed] at hread
      cases hread
    | ok parsed =>
      rw [hparsed] at hread
      cases hread
      exact Yaml.coherent_documents hparsed
  exact coherent.mono fun _ => List.mem_of_mem_filter

theorem isDefault_of_loadTrees {source : Source} {objects : List Tree}
    (h : loadTrees source = .ok (objects, writes)) : ∀ write ∈ writes, isDefault write := by
  obtain ⟨trees, -, h⟩ := bind_eq_ok.mp h
  exact fun write hmem => ((comesFrom_flattenAll h).written write hmem).resolve_left nofun

theorem areLoaded_of_loadTrees {source : Source} {objects : List Tree}
    (h : loadTrees source = .ok (objects, writes)) : AreLoaded objects writes := by
  obtain ⟨trees, hdocuments, flattened⟩ := bind_eq_ok.mp h
  have coherent := coherent_of_documents hdocuments
  have comes := comesFrom_flattenAll flattened
  have written : ∀ write ∈ writes, write.name ≠ "metadata" := by
    intro write hmem heq
    have default := isDefault_of_loadTrees h write hmem
    rw [isDefault, heq] at default
    cases default
  -- A marked place of an object is one of the documents.
  have place : ∀ (x : Tree) (mark : Nat), x.mark? = some mark →
      (∃ object ∈ objects, x.IsIn object) → ∃ tree ∈ trees, x.IsIn tree := by
    rintro x mark marked ⟨object, hobject, hx⟩
    obtain ⟨item, ⟨tree, htree, within⟩, extended⟩ := comes.items object hobject
    exact ⟨tree, htree, (extended.marked x mark hx marked).trans within⟩
  refine ⟨fun object hobject => ?_, written, fun object hobject metadata found later hmap => ?_,
    fun x y mark hx hy hmark hmark' => ?_⟩
  · obtain ⟨item, -, extended⟩ := comes.items object hobject
    exact extended.isMap
  · obtain ⟨item, ⟨tree, htree, within⟩, extended⟩ := comes.items object hobject
    rw [extended.metadata writes written] at found
    refine isMap_of_value (fun value hvalue => ?_) hmap
    have place := (isIn_of_member? written found).trans within
    exact Value.isMap_of_isFlat (coherent.plain tree htree value (hvalue.trans place))
  · exact coherent.once x y mark (place x mark hmark hx) (place y mark hmark' hy) hmark hmark'

end Reconciler.Manifest

import Reconciler.Proofs.Manifest.Building
import Reconciler.Proofs.Manifest.Drafting
import Reconciler.Proofs.Manifest.Reaching

/-!
# How loading and building fail

Loading fails with a problem of encoding unless it meets a kind that counts as present and is not
text. The kinds that it meets are those of the mappings that are reached through lists, and what it
writes itself is text. A mapping that stands at several places has the kind that it was given first
at all of them, so loading may meet it in other positions than those in which it is reached; but
these give it the same kind as one in which it is. After loading, objects are bound, looked through
and compared, and of these steps only looking through an object can fail in another way: it takes
the API version and the keys of the object for text. Main statement: where kinds are text, nothing
but problems of encoding comes from loading and building, and for a strict build, where API versions
and the keys of objects with a model are text, too.
-/

namespace Reconciler

namespace Tree

variable {writes : Writes} {tree part : Tree} {mark : Nat} {name : String}

theorem apply_ne_nil (writes : Writes) (mark : Nat) {members : Members} (h : members ≠ []) :
    writes.apply mark members ≠ [] := by
  induction writes generalizing members with
  | nil => exact h
  | cons write rest ih =>
    rw [Writes.apply_cons]
    refine ih ?_
    split
    · cases members with
      | nil => exact absurd rfl h
      | cons member rest =>
        rw [Members.put]
        split <;> exact List.cons_ne_nil _ _
    · exact h

/-- What is text or counts as absent has no members and no items. -/
theorem eq_nil_of_isTextOrAbsent {own : Option Nat} {members : List (Value × Tree)}
    (h : ((Tree.map own members).value writes).isTextOrAbsent) : members = [] := by
  cases members with
  | nil => rfl
  | cons member rest =>
    obtain ⟨key, tree⟩ := member
    have some : memberValues writes ((key, tree) :: rest) ≠ [] := by
      rw [memberValues]
      exact List.cons_ne_nil _ _
    have filled (members : Members) (some : members ≠ []) :
        (Value.map members).isTextOrAbsent = false := by
      rw [Value.isTextOrAbsent, Value.isTruthy, Bool.not_not, List.isEmpty_eq_false_iff.mpr some]
      rfl
    cases own with
    | none =>
      rw [value, filled _ some] at h
      cases h
    | some own =>
      rw [value, filled _ (apply_ne_nil writes own some)] at h
      cases h

theorem member?_of_isTextOrAbsent (h : (tree.value writes).isTextOrAbsent) (name : String) :
    tree.member? [] name = none := by
  cases tree with
  | map own members =>
    rw [eq_nil_of_isTextOrAbsent h, member?_nil]
    rfl
  | _ => rfl

/-- The only mapping in what is text or counts as absent is an empty one, which is all of it. -/
theorem mark?_of_carries (h : (tree.value writes).isTextOrAbsent) (carried : tree.Carries mark) :
    tree.mark? = some mark := by
  have filled {items : List Tree} {item : Tree} (mem : item ∈ items) :
      (values writes items).isEmpty = false := by
    cases items with
    | nil => cases mem
    | cons first rest =>
      rw [values]
      rfl
  obtain ⟨part, within, marked⟩ := carried
  cases within with
  | self => exact marked
  | item mem _ =>
    rw [value, Value.isTextOrAbsent, Value.isTruthy, filled mem] at h
    cases h
  | component mem _ =>
    rw [value, Value.isTextOrAbsent, Value.isTruthy, filled mem] at h
    cases h
  | member mem _ =>
    rw [eq_nil_of_isTextOrAbsent h] at mem
    cases mem

/-- A member of a tree is one that has been written, or the one that the tree has. -/
theorem member?_cases (tree : Tree) (writes : Writes) (name : String) :
    (∃ mark value, tree.mark? = some mark ∧ writes.last? mark name = some value ∧
      tree.member? writes name = some (.leaf value)) ∨
    tree.member? writes name = tree.member? [] name := by
  cases tree with
  | map own members =>
    cases own with
    | none => exact .inr rfl
    | some own =>
      cases last : writes.last? own name with
      | none => exact .inr (by rw [member?, last, member?_nil])
      | some value => exact .inl ⟨own, value, rfl, last, by rw [member?, last]⟩
  | _ => exact .inr rfl

end Tree

namespace Manifest

open Reconciler.Tree

/-! ### Kinds that can be used -/

/-- A kind that can be taken for text: it is text, or it counts as absent and nothing is given to
it, which happens to an empty mapping that is an item of a list as well. -/
structure IsUsableKind (documents : List Tree) (kind : Tree) : Prop where
  text : (kind.value []).isTextOrAbsent
  apart : ∀ position tree mark, IsReached documents position tree → tree.mark? = some mark →
    position.missing tree ≠ [] → kind.mark? ≠ some mark

/-- The kind of a tree can be used if it has one. -/
def HasUsableKind (documents : List Tree) (tree : Tree) : Prop :=
  ∀ kind, tree.member? [] "kind" = some kind → IsUsableKind documents kind

/-- A manifest that is read without faults, and in which all that is reached has kinds that can be
used. -/
structure HasTextKinds (source : Source) : Prop where
  read : ∀ fault, documents source ≠ .error (.fault fault)
  kinds : ∀ trees, documents source = .ok trees → ∀ position tree, IsReached trees position tree →
    HasUsableKind trees tree

/-- An object in which undeclared fields can be looked for: its API version is text, and so are
its keys if its kind has a model. -/
structure IsCheckable (object : Value) : Prop where
  version : (object.field "apiVersion").isTextOrAbsent
  keyed : ∀ info, Schema.lookupObject object = .ok info → info.isSupported → object.hasTextKeys

variable {failure : Failure}

section Documents

variable {documents : List Tree} {writes : Writes} {position : Position} {tree kind : Tree}

theorem isUsableKind_leaf (documents : List Tree) {value : Value} (h : value.isTextOrAbsent) :
    IsUsableKind documents (.leaf value) where
  text := by
    rw [Tree.value]
    exact h
  apart _ _ mark _ _ _ := (Option.some_ne_none mark).symm

theorem hasUsableKind_of_kindIsText (documents : List Tree) (h : kindIsText tree) :
    HasUsableKind documents tree := by
  intro kind found
  cases tree with
  | map mark members =>
    rw [member?_nil] at found
    rw [kindIsText, found] at h
    cases kind with
    | leaf kind => exact isUsableKind_leaf documents (Value.isTextOrAbsent_of_isTextIfPresent h)
    | _ => cases h
  | _ => cases found

/-! ### What is met -/

/-- A tree is met in a position: it is reached in one that gives the same kind. -/
def IsMet (documents : List Tree) (position : Position) (tree : Tree) : Prop :=
  ∃ other : Position, other.kind? = position.kind? ∧ IsReached documents other tree

/-- All that has been written was missing in mappings that were met. -/
def WasMissing (documents : List Tree) (writes : Writes) : Prop :=
  ∀ write ∈ writes, ∃ position tree, IsMet documents position tree ∧
    tree.mark? = some write.mark ∧ (write.name, write.value) ∈ position.missing tree

/-- A kind that has been written is one that a position gives. -/
theorem WasMissing.of_last? (missing : WasMissing documents writes) {mark : Nat} {kind : Value}
    (last : writes.last? mark "kind" = some kind) : ∃ position tree,
      IsMet documents position tree ∧ tree.mark? = some mark ∧
        tree.member? [] "kind" = none ∧ position.kind? = some kind := by
  obtain ⟨write, hfind, rfl⟩ := Option.map_eq_some_iff.mp last
  have named := List.find?_some hfind
  rw [Bool.and_eq_true, beq_iff_eq, beq_iff_eq] at named
  obtain ⟨position, tree, met, marked, mem⟩ :=
    missing write (List.mem_reverse.mp (List.mem_of_find?_eq_some hfind))
  rw [named.1] at marked
  rw [named.2] at mem
  exact ⟨position, tree, met, marked, kind_mem_missing_iff.mp mem⟩

/-- A kind that can be used is the same whatever has been written. -/
theorem IsUsableKind.value_eq (usable : IsUsableKind documents kind)
    (missing : WasMissing documents writes) : kind.value writes = kind.value [] := by
  rw [← List.nil_append writes]
  refine value_append kind [] fun write hmem carried => ?_
  obtain ⟨position, tree, ⟨other, same, reached⟩, marked, mem⟩ := missing write hmem
  refine usable.apart other tree write.mark reached marked (fun none => ?_)
    (mark?_of_carries usable.text carried)
  have names := names_missing same tree
  rw [none, List.map_nil, eq_comm, List.map_eq_nil_iff] at names
  rw [names] at mem
  cases mem

/-- The kinds that positions give are text. -/
theorem exists_text_of_kind? {kind : Value} (h : position.kind? = some kind) :
    ∃ text, kind = .text text := by
  cases position with
  | document => cases h
  | item own apiVersion =>
    rw [Position.kind?] at h
    split at h
    · cases h
    · exact ⟨_, (Option.some.inj h).symm⟩

theorem isTextOrAbsent_kind (missing : WasMissing documents writes)
    (usable : HasUsableKind documents tree) : (tree.get writes "kind").isTextOrAbsent := by
  rcases member?_cases tree writes "kind" with ⟨mark, kind, -, last, found⟩ | own
  · obtain ⟨position, -, -, -, -, given⟩ := missing.of_last? last
    obtain ⟨text, rfl⟩ := exists_text_of_kind? given
    rw [Tree.get, found, Option.map_some, value]
    rfl
  · rw [Tree.get, own]
    cases found : tree.member? [] "kind" with
    | none => rfl
    | some kind =>
      have usable := usable kind found
      rw [Option.map_some, usable.value_eq missing]
      exact usable.text

/-! ### Defaults -/

section Defaults

variable {mark : Option Nat} {members : List (Value × Tree)}

theorem wasMissing_writeDefaults (missing : WasMissing documents writes)
    (met : IsMet documents position (.map mark members)) :
    WasMissing documents (position.writeDefaults writes (.map mark members)).2 := fun write hmem =>
  (mem_missing_of_writeDefaults hmem).elim (missing write) fun ⟨marked, mem⟩ =>
    ⟨position, _, met, marked, mem⟩

theorem hasUsableKind_writeDefaults (usable : HasUsableKind documents (.map mark members)) :
    HasUsableKind documents (position.writeDefaults writes (.map mark members)).1 := by
  cases mark with
  | none =>
    intro kind found
    have own : ((Tree.map none members).member? [] "kind").or (position.kind?.map .leaf) =
        some kind := by
      rw [← member?_kind_writeDefaults position rfl, writeDefaults_unmarked] at *
      exact found
    rcases Option.or_eq_some_iff.mp own with own | ⟨-, given⟩
    · exact usable kind own
    · obtain ⟨value, hvalue, rfl⟩ := Option.map_eq_some_iff.mp given
      obtain ⟨text, rfl⟩ := exists_text_of_kind? hvalue
      exact isUsableKind_leaf documents rfl
  | some mark => rwa [writeDefaults_marked_fst]

/-- The kind that a mapping has at its turn is one that it has in a position in which it is
reached. If it was written before, then for a position in which the mapping was met then. -/
theorem exists_reached (coherent : AreCoherent documents)
    (usable : HasUsableKind documents (.map mark members)) (missing : WasMissing documents writes)
    (met : IsMet documents position (.map mark members)) :
    ∃ other, IsReached documents other (.map mark members) ∧
      (other.completed (.map mark members)).field "kind" =
        (position.writeDefaults writes (.map mark members)).1.get
          (position.writeDefaults writes (.map mark members)).2 "kind" := by
  have later := wasMissing_writeDefaults missing met
  rw [Tree.get, member?_kind_writeDefaults position rfl]
  rcases member?_cases (.map mark members) writes "kind" with ⟨own, kind, marked, last, found⟩ | own
  · obtain ⟨position', tree, ⟨other, same, reached⟩, marked', absent, given⟩ :=
      missing.of_last? last
    obtain ⟨here, -, hereReached⟩ := met
    obtain rfl := coherent.once tree (.map mark members) own reached.exists_isIn
      hereReached.exists_isIn marked' marked
    refine ⟨other, reached, ?_⟩
    rw [field_kind_completed other rfl, absent, same, given, found, Option.some_or, Option.map_some,
      value]
    rfl
  · obtain ⟨other, same, reached⟩ := met
    refine ⟨other, reached, ?_⟩
    rw [field_kind_completed other rfl, own, same]
    cases found : (Tree.map mark members).member? [] "kind" with
    | none =>
      cases position.kind? with
      | none => rfl
      | some kind =>
        rw [Option.map_some, Option.map_none, Option.none_or, Option.none_or, Option.map_some,
          value]
    | some kind =>
      rw [Option.some_or, Option.map_some, Option.map_some, Option.some_or,
        (usable kind found).value_eq later]

end Defaults

/-! ### Loading -/

/-- Loading fails only with problems of encoding, and the kinds of the objects that it gives can be
used. -/
structure Flattens (documents : List Tree) (result : Except Failure (List Tree × Writes)) :
    Prop where
  failing : ∀ failure, result = .error failure → failure.IsEncoding
  kinds : ∀ objects writes, result = .ok (objects, writes) →
    WasMissing documents writes ∧ ∀ object ∈ objects, HasUsableKind documents object

theorem flattens_ok {objects : List Tree} (missing : WasMissing documents writes)
    (h : ∀ object ∈ objects, HasUsableKind documents object) :
    Flattens documents (.ok (objects, writes)) :=
  ⟨nofun, fun _ _ heq => by cases heq; exact ⟨missing, h⟩⟩

theorem flattens_error (h : failure.IsEncoding) : Flattens documents (.error failure) :=
  ⟨fun _ heq => by cases heq; exact h, nofun⟩

mutual

theorem flattens_flatten (coherent : AreCoherent documents)
    (kinds : ∀ position tree, IsReached documents position tree → HasUsableKind documents tree)
    {writes : Writes} {position : Position} {tree : Tree} (missing : WasMissing documents writes)
    (met : IsMet documents position tree) : Flattens documents (flatten position writes tree) := by
  cases tree with
  | map mark members =>
    have usable : HasUsableKind documents (.map mark members) := by
      obtain ⟨other, -, reached⟩ := met
      exact kinds other _ reached
    have later := wasMissing_writeDefaults missing met
    have kept : HasUsableKind documents (position.writeDefaults writes (.map mark members)).1 :=
      hasUsableKind_writeDefaults usable
    obtain ⟨other, reached, same⟩ := exists_reached coherent usable missing met
    rw [flatten]
    generalize position.writeDefaults writes (.map mark members) = defaulted at later kept same ⊢
    obtain ⟨object, writes'⟩ := defaulted
    dsimp only at later kept same ⊢
    have single : Flattens documents (.ok ([object], writes')) :=
      flattens_ok later (List.forall_mem_singleton.mpr kept)
    obtain ⟨kind, hkind⟩ := exists_kindText (isTextOrAbsent_kind later kept)
    rw [hkind]
    change Flattens documents (if isListKind kind = true then _ else .ok ([object], writes'))
    split
    · rename_i named
      have met (items : List Tree) (found : find? members "items" = some (.list items))
          (item : Tree) (there : item ∈ items) :
          IsMet documents (.item kind (object.get writes' "apiVersion")) item := by
        have list : IsListAt other (.map mark members) kind items :=
          ⟨same.trans (eq_text_of_kindText hkind named), named, (member?_nil ..).trans found⟩
        exact ⟨other.inside (.map mark members) kind, rfl, reached.item list there⟩
      have inner := flattens_flattenItems coherent kinds later met
      split
      · rename_i found
        exact inner _ found
      · exact single
    · exact single
  | _ =>
    rw [flatten]
    · exact flattens_error (Failure.isEncoding_problem (by cases position <;> rfl))
    · exact nofun

theorem flattens_flattenItems (coherent : AreCoherent documents)
    (kinds : ∀ position tree, IsReached documents position tree → HasUsableKind documents tree)
    {writes : Writes} {position : Position} {members : List (Value × Tree)}
    (missing : WasMissing documents writes)
    (met : ∀ items, find? members "items" = some (.list items) →
      ∀ item ∈ items, IsMet documents position item) :
    ∀ result, flattenItems position writes members = some result → Flattens documents result := by
  cases members with
  | nil =>
    rw [flattenItems]
    exact nofun
  | cons member rest =>
    obtain ⟨key, tree⟩ := member
    rw [find?_cons] at met
    unfold flattenItems
    split
    · rename_i same
      rw [if_pos same] at met
      cases tree with
      | list items =>
        rintro result heq
        obtain rfl := Option.some.inj heq
        exact flattens_flattenAll coherent kinds missing (met items rfl)
      | _ => exact nofun
    · rename_i other
      rw [if_neg other] at met
      exact flattens_flattenItems coherent kinds missing met

theorem flattens_flattenAll (coherent : AreCoherent documents)
    (kinds : ∀ position tree, IsReached documents position tree → HasUsableKind documents tree)
    {writes : Writes} {position : Position} {trees : List Tree}
    (missing : WasMissing documents writes) (met : ∀ tree ∈ trees, IsMet documents position tree) :
    Flattens documents (flattenAll position writes trees) := by
  cases trees with
  | nil =>
    rw [flattenAll_nil]
    exact flattens_ok missing (List.forall_mem_nil _)
  | cons tree rest =>
    obtain ⟨here, others⟩ := List.forall_mem_cons.mp met
    have first := flattens_flatten coherent kinds missing here
    rw [flattenAll]
    cases hfirst : flatten position writes tree with
    | error failure => exact flattens_error (first.failing failure hfirst)
    | ok read =>
      obtain ⟨objects, middle⟩ := read
      obtain ⟨missingNow, usable⟩ := first.kinds objects middle hfirst
      have others := flattens_flattenAll coherent kinds missingNow others
      change Flattens documents ((flattenAll position middle rest) >>= _)
      cases hothers : flattenAll position middle rest with
      | error failure => exact flattens_error (others.failing failure hothers)
      | ok read =>
        obtain ⟨more, last⟩ := read
        obtain ⟨missingLast, usableMore⟩ := others.kinds more last hothers
        exact flattens_ok missingLast (List.forall_mem_append.mpr ⟨usable, usableMore⟩)

end

end Documents

/-- How documents are read from a manifest without faults. -/
theorem isEncoding_of_documents {source : Source}
    (read : ∀ fault, documents source ≠ .error (.fault fault))
    (h : documents source = .error failure) : failure.IsEncoding := by
  have encoded : failure.IsEncoding ∨ ∃ fault, failure = .fault fault := by
    rcases bind_eq_error.mp h with h | ⟨text, -, h⟩
    · cases source with
      | text content => cases h
      | bytes content =>
        rw [Source.decode] at h
        split at h
        · cases h
        · cases h
          exact .inl (Failure.isEncoding_problem rfl)
    · rcases bind_eq_error.mp h with h | ⟨trees, -, h⟩
      · cases hread : Yaml.documents text with
        | ok trees =>
          rw [hread] at h
          cases h
        | error flaw =>
          rw [hread] at h
          cases h
          cases flaw with
          | form => exact .inl (Failure.isEncoding_problem rfl)
          | fault fault => exact .inr ⟨fault, rfl⟩
      · cases h
  rcases encoded with encoded | ⟨fault, rfl⟩
  · exact encoded
  · exact absurd h (read fault)

/-- Where kinds are text, loading fails only with problems of encoding, and the objects have kinds
that are text. -/
structure Loads (result : Except Failure (List Tree × Writes)) : Prop where
  failing : ∀ failure, result = .error failure → failure.IsEncoding
  kinds : ∀ objects writes, result = .ok (objects, writes) →
    ∀ object ∈ objects, (object.get writes "kind").isTextOrAbsent

theorem HasTextKinds.loads {source : Source} (text : HasTextKinds source) :
    Loads (loadTrees source) := by
  rw [loadTrees]
  cases hread : documents source with
  | error failure =>
    exact ⟨fun _ heq => Except.error.inj heq ▸ isEncoding_of_documents text.read hread, nofun⟩
  | ok trees =>
    have flattened := flattens_flattenAll (coherent_of_documents hread) (text.kinds trees hread)
      (List.forall_mem_nil _) fun _ htree => ⟨.document, rfl, isReached_of_mem htree⟩
    refine ⟨flattened.failing, fun objects writes heq object hobject => ?_⟩
    obtain ⟨missing, usable⟩ := flattened.kinds objects writes heq
    exact isTextOrAbsent_kind missing (usable object hobject)

/-! ### Building -/

variable {discovery : Discovery} {space : Value} {writes writes' later : Writes} {isStrict : Bool}
  {progress next : Progress} {draft : Draft} {object : Tree} {objects rest : List Tree}

theorem isEncoding_of_bind (h : bind discovery space writes object = .error failure) :
    failure.IsEncoding := by
  unfold bind at h
  dsimp only at h
  split at h
  · cases h
    exact Failure.isEncoding_problem rfl
  · split at h
    · cases h
      exact Failure.isEncoding_problem rfl
    · split at h <;> cases h
      exact Failure.isEncoding_problem rfl

theorem isEncoding_of_take {paths : List String} (h : progress.take draft paths = .error failure) :
    failure.IsEncoding := by
  rw [Progress.take] at h
  split at h
  · unfold Progress.add at h
    dsimp only at h
    split at h <;> cases h
    exact Failure.isEncoding_problem rfl
  · cases h

/-- Before the turn of an object, nothing but namespaces has been written, and to metadata with a
name. So an empty mapping is still empty then. -/
structure AreNamedSpaces (objects : List Tree) (later : Writes) : Prop where
  areSpaces : AreSpaces later
  named : ∀ write ∈ later, ∃ metadata : Tree, (∃ object ∈ objects, metadata.IsIn object) ∧
    metadata.mark? = some write.mark ∧ metadata.member? [] "name" ≠ none

theorem areNamedSpaces_nil (objects : List Tree) : AreNamedSpaces objects [] :=
  ⟨List.forall_mem_nil _, List.forall_mem_nil _⟩

/-- A member that is text or counts as absent is at any turn as it was when the object was
loaded. -/
theorem AreNamedSpaces.get_eq (spaces : AreNamedSpaces objects later)
    (loaded : AreLoaded objects writes) (hobject : object ∈ objects) {name : String}
    (other : "namespace" ≠ name) (text : ((object.value writes).field name).isTextOrAbsent) :
    object.get (writes ++ later) name = (object.value writes).field name := by
  have isMap := loaded.isMap object hobject
  refine get_append isMap (fun write hmem _ => spaces.areSpaces write hmem ▸ other) ?_
  intro part found write hmem carried
  rw [← get_eq_field isMap, Tree.get, found, Option.map_some] at text
  have marked := mark?_of_carries text carried
  obtain ⟨metadata, there, hmark, named⟩ := spaces.named write hmem
  rcases member?_cases object writes name with ⟨mark, value, -, -, written⟩ | own
  · obtain rfl := Option.some.inj (written.symm.trans found)
    cases marked
  · have within := isIn_of_member? (List.forall_mem_nil _) (own.symm.trans found)
    obtain rfl := loaded.once metadata part write.mark there ⟨object, hobject, within⟩ hmark marked
    exact named (member?_of_isTextOrAbsent text "name")

/-- The name of a mapping is not written. -/
theorem member?_name (defaults : ∀ write ∈ writes, isDefault write) (spaces : AreSpaces later)
    (tree : Tree) : tree.member? (writes ++ later) "name" = tree.member? [] "name" := by
  rw [← List.nil_append (writes ++ later)]
  refine member?_append (fun write hmem _ => ?_) []
  rcases List.mem_append.mp hmem with hmem | hmem
  · have default := defaults write hmem
    rw [isDefault, Bool.or_eq_true, beq_iff_eq, beq_iff_eq] at default
    rcases default with default | default <;> rw [default] <;> decide
  · rw [spaces write hmem]
    decide

/-- What is written for an object that has been bound is written to metadata with a name. -/
theorem IsDraftOf.areNamedSpaces (h : IsDraftOf discovery (writes ++ later) object draft writes')
    (spaces : AreNamedSpaces objects later) (loaded : AreLoaded objects writes)
    (defaults : ∀ write ∈ writes, isDefault write) (hobject : object ∈ objects) :
    ∃ all, AreNamedSpaces objects all ∧ writes' = writes ++ all := by
  obtain ⟨own, rfl, hown⟩ := h.exists_own
  refine ⟨later ++ own, ⟨fun write hmem => ?_, fun write hmem => ?_⟩, List.append_assoc ..⟩
  · exact (List.mem_append.mp hmem).elim (spaces.areSpaces write) fun hmem => (hown write hmem).1
  · rcases List.mem_append.mp hmem with hmem | hmem
    · exact spaces.named write hmem
    · obtain ⟨-, marked, -⟩ := hown write hmem
      have found := (h.metadata_found spaces.areSpaces).1
      have named := h.name
      rw [metadataOf_append spaces.areSpaces] at marked named
      refine ⟨_, ⟨object, hobject, isIn_of_member? loaded.written found⟩, marked, fun none => ?_⟩
      rw [Tree.get, member?_name defaults spaces.areSpaces, none] at named
      cases named

/-- Undeclared fields can be looked for in a draft if they can in the object as it was loaded. -/
theorem IsDraftOf.exists_paths (h : IsDraftOf discovery (writes ++ later) object draft writes')
    (spaces : AreNamedSpaces objects later) (loaded : AreLoaded objects writes)
    (hobject : object ∈ objects) (kind : ((object.value writes).field "kind").isTextOrAbsent)
    (checkable : IsCheckable (object.value writes)) :
    ∃ paths, undeclaredPaths (draft.object.value writes') = .ok paths := by
  have isMap := loaded.isMap object hobject
  -- An object is bound only if its names count as present, so they are text.
  have versionThere := h.apiVersion
  have kindThere := h.kind
  rw [spaces.get_eq loaded hobject (by decide) checkable.version] at versionThere
  rw [spaces.get_eq loaded hobject (by decide) kind] at kindThere
  obtain ⟨versionText, hversion⟩ := Value.exists_text checkable.version versionThere
  obtain ⟨kindText, hkind⟩ := Value.exists_text kind kindThere
  have versionLeaf : ((object.value writes).field "apiVersion").isLeaf := by rw [hversion]; rfl
  have kindLeaf : ((object.value writes).field "kind").isLeaf := by rw [hkind]; rfl
  refine exists_undeclaredPaths (isMap_value (h.isMap isMap) writes') ?_ ?_ ?_
  · rw [h.field spaces.areSpaces isMap (by decide) (by decide) versionLeaf]
    exact checkable.version
  · rw [h.field spaces.areSpaces isMap (by decide) (by decide) kindLeaf]
    exact kind
  · intro info known supported
    rw [h.lookupObject spaces.areSpaces isMap versionLeaf kindLeaf] at known
    rw [h.hasTextKeys isMap writes' writes]
    exact checkable.keyed info known supported

/-- Objects that were loaded, and in which a strict build can look for undeclared fields. -/
structure AreBuildable (isStrict : Bool) (objects : List Tree) (writes : Writes) : Prop where
  loaded : AreLoaded objects writes
  defaults : ∀ write ∈ writes, isDefault write
  kinds : ∀ object ∈ objects, ((object.value writes).field "kind").isTextOrAbsent
  checkable : isStrict → ∀ object ∈ objects, IsCheckable (object.value writes)

theorem isEncoding_of_step (buildable : AreBuildable isStrict objects writes)
    (hwrites : progress.writes = writes ++ later) (spaces : AreNamedSpaces objects later)
    (hobject : object ∈ objects)
    (h : progress.step isStrict discovery space object = .error failure) : failure.IsEncoding := by
  rw [step_eq] at h
  rcases bind_eq_error.mp h with h | ⟨⟨draft, writes'⟩, hbind, h⟩
  · exact isEncoding_of_bind h
  · rcases bind_eq_error.mp h with h | ⟨paths, -, h⟩
    · -- Only a strict build looks for undeclared fields, and it can.
      cases isStrict with
      | false => cases h
      | true =>
        rw [hwrites] at hbind
        obtain ⟨paths, hpaths⟩ := (isDraftOf_bind hbind).exists_paths spaces buildable.loaded
          hobject (buildable.kinds object hobject) (buildable.checkable rfl object hobject)
        rw [foundIn, if_pos rfl, hpaths] at h
        cases h
    · exact isEncoding_of_take h

theorem areNamedSpaces_step (buildable : AreBuildable isStrict objects writes)
    (hwrites : progress.writes = writes ++ later) (spaces : AreNamedSpaces objects later)
    (hobject : object ∈ objects) (h : progress.step isStrict discovery space object = .ok next) :
    ∃ all, AreNamedSpaces objects all ∧ next.writes = writes ++ all := by
  obtain ⟨draft, -, hbind, -⟩ := exists_draft_of_step h
  rw [hwrites] at hbind
  exact (isDraftOf_bind hbind).areNamedSpaces spaces buildable.loaded buildable.defaults hobject

theorem isEncoding_of_steps (buildable : AreBuildable isStrict objects writes)
    (hwrites : progress.writes = writes ++ later) (spaces : AreNamedSpaces objects later)
    (hrest : rest ⊆ objects)
    (h : rest.foldlM (Progress.step isStrict discovery space) progress = .error failure) :
    failure.IsEncoding := by
  induction rest generalizing progress later with
  | nil => cases h
  | cons object rest ih =>
    obtain ⟨hobject, hothers⟩ := List.cons_subset.mp hrest
    rw [List.foldlM_cons] at h
    rcases bind_eq_error.mp h with h | ⟨next, hstep, h⟩
    · exact isEncoding_of_step buildable hwrites spaces hobject h
    · obtain ⟨all, hall, hnext⟩ := areNamedSpaces_step buildable hwrites spaces hobject hstep
      exact ih hnext hall hothers h

/-- Where kinds are text, building fails only with problems of encoding. A strict build does if
undeclared fields can be looked for in the objects. -/
theorem HasTextKinds.isEncoding_of_build {source : Source} (text : HasTextKinds source)
    (checkable : isStrict → ∀ values, load source = .ok values →
      ∀ value ∈ values, IsCheckable value)
    (h : build isStrict discovery space source = .error failure) : failure.IsEncoding := by
  rcases bind_eq_error.mp h with h | ⟨⟨objects, writes⟩, hload, h⟩
  · exact text.loads.failing failure h
  · rcases bind_eq_error.mp h with h | ⟨progress, -, h⟩
    · have loaded := areLoaded_of_loadTrees hload
      have buildable : AreBuildable isStrict objects writes := by
        refine ⟨loaded, isDefault_of_loadTrees hload, fun object hobject => ?_,
          fun strict object hobject => ?_⟩
        · rw [← get_eq_field (loaded.isMap object hobject)]
          exact text.loads.kinds objects writes hload object hobject
        · exact checkable strict _ (load_eq_ok_iff.mpr ⟨objects, writes, hload, rfl⟩) _
            (List.mem_map_of_mem hobject)
      have start : ({ writes } : Progress).writes = writes ++ [] := (List.append_nil writes).symm
      exact isEncoding_of_steps buildable start (areNamedSpaces_nil objects) (List.Subset.refl _) h
    · split at h <;> cases h
      exact Failure.isEncoding_problem rfl

/-- Where kinds are text, manifests that cannot be loaded or built make problems of encoding and
nothing else. For strict builds, API versions must be text as well, and the keys of objects whose
kinds have a model. -/
theorem manifests_fail_with_encoding_problems (source : Source) (text : HasTextKinds source) :
    (∀ failure, load source = .error failure → failure.IsEncoding) ∧
    ∀ (discovery : Discovery) (space : Value),
      (∀ failure, build false discovery space source = .error failure → failure.IsEncoding) ∧
      ((∀ values, load source = .ok values → ∀ value ∈ values, IsCheckable value) →
        ∀ failure, build true discovery space source = .error failure → failure.IsEncoding) := by
  refine ⟨fun failure h => ?_, fun discovery space => ⟨fun failure h => ?_,
    fun checkable failure h => ?_⟩⟩
  · rcases bind_eq_error.mp h with h | ⟨read, -, h⟩
    · exact text.loads.failing failure h
    · cases h
  · have lenient : false = true → ∀ values, load source = .ok values →
        ∀ value ∈ values, IsCheckable value := nofun
    exact text.isEncoding_of_build lenient h
  · exact text.isEncoding_of_build (fun _ => checkable) h

/-- A manifest with a field that its model does not declare. -/
def misspelledText : String :=
  "apiVersion: v1\nkind: ConfigMap\nmetadata:\n  name: x\ndta:\n  a: b\n"

/-- An object with an undeclared field is refused with a problem of encoding. -/
theorem misspelled_field_is_encoding_problem :
    HasTextKinds (.text misspelledText) ∧
    (∀ values, load (.text misspelledText) = .ok values → ∀ value ∈ values, IsCheckable value) ∧
    ∃ failure, build true (Cluster.discovery (.text "default")) (.text "test")
      (.text misspelledText) = .error failure ∧ failure.IsEncoding := by
  have run : (documents (.text misspelledText)).toOption.any fun trees =>
      allHaveTextKinds trees && (flattenAll .document [] trees).toOption.any fun read =>
        (read.1.map (Tree.value read.2)).all (fun value =>
          (value.field "apiVersion").isTextIfPresent && value.hasTextKeys) &&
        !(buildTrees true (Cluster.discovery (.text "default")) (.text "test") read.1 read.2).isOk
    := by decide +kernel
  obtain ⟨trees, hread, run⟩ := exists_of_any run
  obtain ⟨kinds, run⟩ := Bool.and_eq_true_iff.mp run
  obtain ⟨⟨objects, writes⟩, hflatten, run⟩ := exists_of_any run
  simp only [Bool.and_eq_true, List.all_eq_true, Bool.not_eq_true'] at run
  obtain ⟨texts, refused⟩ := run
  have text : HasTextKinds (.text misspelledText) := by
    constructor <;> rw [hread]
    · exact nofun
    · rintro _ ⟨⟩ position tree reached
      exact hasUsableKind_of_kindIsText trees (reached.kindIsText kinds)
  have hload : loadTrees (.text misspelledText) = .ok (objects, writes) := by
    rw [loadTrees, hread]
    exact hflatten
  obtain ⟨hvalues, hbuild⟩ := load_and_build_of_loadTrees hload
  have checkable : ∀ values, load (.text misspelledText) = .ok values →
      ∀ value ∈ values, IsCheckable value := by
    rw [hvalues]
    rintro _ heq value hvalue
    obtain rfl := Except.ok.inj heq
    exact ⟨Value.isTextOrAbsent_of_isTextIfPresent (texts value hvalue).1,
      fun _ _ _ => (texts value hvalue).2⟩
  rw [← hbuild] at refused
  obtain ⟨failure, built⟩ := exists_of_isOk_eq_false refused
  exact ⟨text, checkable, failure, built,
    ((manifests_fail_with_encoding_problems _ text).2 _ _).2 checkable failure built⟩

/-- A number as a kind is met with a fault: loading takes every kind that is present for text. -/
theorem number_as_kind_is_fault :
    ¬∀ (source : Source) (trees : List Tree), documents source = .ok trees →
      (∀ failure, load source = .error failure → failure.IsEncoding) ∧
      ∀ (discovery : Discovery) (space : Value) (isStrict : Bool) (failure : Failure),
        build isStrict discovery space source = .error failure → failure.IsEncoding := by
  intro encoding
  have read : (documents (.text "kind: 5\n")).isOk := by decide +kernel
  obtain ⟨trees, hread⟩ := exists_of_isOk read
  have fails : isFault (load (.text "kind: 5\n")) := by decide +kernel
  obtain ⟨failure, hload, other⟩ := not_isEncoding_of_isFault fails
  exact other ((encoding _ trees hread).1 failure hload)

end Manifest

end Reconciler

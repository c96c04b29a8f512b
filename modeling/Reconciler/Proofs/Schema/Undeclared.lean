import Reconciler.Cluster.Store
import Reconciler.Manifest.Build
import Reconciler.Proofs.Value.Names

/-!
# Undeclared fields

The search for undeclared fields names them by paths, which are text below any field with a name
and for the keys of the object itself if these are text. What is written to a declared field adds
no undeclared field if nothing below that field is typed. In particular the namespace in the
metadata of an object has no part in what the search finds.
-/

namespace Reconciler

open Schema

namespace Value

/-- Whether the keys of a mapping are text. -/
def hasTextKeys (value : Value) : Bool := value.members.all fun member => member.1.isText

/-- Whether a value is no collection, and text if it counts as present. -/
def isTextIfPresent (value : Value) : Bool := value.isLeaf && (value.isText || !value.isTruthy)

/-- Whether a value is text if it counts as present. An empty collection does not. -/
def isTextOrAbsent (value : Value) : Bool := value.isText || !value.isTruthy

theorem isLeaf_of_isTextIfPresent {value : Value} (h : value.isTextIfPresent) : value.isLeaf :=
  (Bool.and_eq_true_iff.mp h).1

theorem isTextOrAbsent_of_isTextIfPresent {value : Value} (h : value.isTextIfPresent) :
    value.isTextOrAbsent :=
  (Bool.and_eq_true_iff.mp h).2

theorem exists_text {value : Value} (h : value.isTextOrAbsent) (present : value.isTruthy) :
    ∃ name, value = .text name := by
  rw [isTextOrAbsent, present, Bool.not_true, Bool.or_false] at h
  exact isText_iff.mp h

end Value

namespace Schema

variable {table : Table} {declared : Model} {type name : String}

/-! ### What is not typed -/

@[simp] theorem unknownFields_none (table : Table) (path : String) (value : Value) :
    unknownFields table none path value = [] := by
  cases value <;> simp [unknownFields]

@[simp] theorem unknownValues_none (table : Table) (path : String) (members : Members) :
    unknownValues table none path members = [] := by
  induction members with
  | nil => rw [unknownValues]
  | cons member rest ih => rw [unknownValues, ih, unknownFields_none, List.append_nil]

@[simp] theorem unknownItems_none (table : Table) (path : String) (index : Nat)
    (items : List Value) : unknownItems table none path index items = [] := by
  induction items generalizing index with
  | nil => rw [unknownItems]
  | cons item rest ih => rw [unknownItems, ih, unknownFields_none, List.append_nil]

/-- Nothing below a field is typed if its type is not a model and has no elements. -/
theorem unknownBelow_of_free (free : table.model? type = none)
    (plain : elementType (some type) = none) (path : String) (value : Value) :
    unknownBelow table type path value = [] := by
  cases value with
  | map members => simp [unknownBelow, free, plain]
  | list items => simp [unknownBelow, plain]
  | _ => rw [unknownBelow] <;> exact nofun

/-! ### Members -/

/-- The undeclared keys that one member accounts for. -/
def unknownAt (table : Table) (declared : Model) (path : String) (key value : Value) :
    List Value :=
  match key with
  | .text name =>
    match declared.type? name with
    | some type => unknownBelow table type (memberPath path key).plain value
    | none => [memberPath path key]
  | _ => [memberPath path key]

theorem unknownMembers_cons (table : Table) (declared : Model) (path : String)
    (key value : Value) (rest : Members) :
    unknownMembers table declared path ((key, value) :: rest) =
      unknownAt table declared path key value ++ unknownMembers table declared path rest := by
  cases key with
  | text name =>
    rw [unknownMembers]
    rfl
  | _ =>
    rw [unknownMembers]
    · rfl
    · exact nofun

theorem unknownAt_text (declares : declared.type? name = some type) (path : String)
    (value : Value) : unknownAt table declared path (.text name) value =
      unknownBelow table type (memberPath path (.text name)).plain value := by
  rw [unknownAt, declares]

/-- A member is undeclared itself, or what is found is below it. -/
theorem unknownAt_cases (table : Table) (declared : Model) (path : String) (key value : Value) :
    unknownAt table declared path key value = [memberPath path key] ∨
      ∃ name type, key = .text name ∧ declared.type? name = some type ∧
        unknownAt table declared path key value =
          unknownBelow table type (memberPath path (.text name)).plain value := by
  cases key with
  | text name =>
    cases declares : declared.type? name with
    | none => exact .inl (by rw [unknownAt, declares])
    | some type => exact .inr ⟨name, type, rfl, declares, unknownAt_text declares path value⟩
  | _ => exact .inl rfl

/-! ### Paths -/

theorem isEmpty_dot (front rest : String) : (front ++ "." ++ rest).isEmpty = false := by
  have dot : (".").isEmpty = false := rfl
  simp [String.isEmpty_eq_false_iff] at dot ⊢

theorem isEmpty_itemPath (path : String) (index : Nat) : (itemPath path index).isEmpty = false := by
  simp [itemPath, String.isEmpty_eq_false_iff]

theorem isText_memberPath {path : String} (named : path.isEmpty = false) (key : Value) :
    (memberPath path key).isText := by
  rw [memberPath, named]
  rfl

theorem isEmpty_memberPath {path : String} (named : path.isEmpty = false) (key : Value) :
    (memberPath path key).plain.isEmpty = false := by
  rw [memberPath, named]
  exact isEmpty_dot path key.plain

mutual

/-- The paths below a path that is not empty are text. -/
theorem isText_unknownFields (table : Table) (model : Option String) {path : String}
    (named : path.isEmpty = false) (value : Value) :
    ∀ found ∈ unknownFields table model path value, found.isText := by
  cases value with
  | map members =>
    rw [unknownFields]
    split
    · exact isText_unknownMembers table _ named members
    · exact List.forall_mem_nil _
  | _ =>
    rw [unknownFields]
    · exact List.forall_mem_nil _
    · exact nofun

theorem isText_unknownMembers (table : Table) (declared : Model) {path : String}
    (named : path.isEmpty = false) (members : Members) :
    ∀ found ∈ unknownMembers table declared path members, found.isText := by
  cases members with
  | nil =>
    rw [unknownMembers]
    exact List.forall_mem_nil _
  | cons member rest =>
    obtain ⟨key, value⟩ := member
    rw [unknownMembers_cons]
    refine List.forall_mem_append.mpr ⟨?_, isText_unknownMembers table declared named rest⟩
    rcases unknownAt_cases table declared path key value with heq | ⟨name, type, -, -, heq⟩
    · rw [heq]
      exact List.forall_mem_singleton.mpr (isText_memberPath named key)
    · rw [heq]
      exact isText_unknownBelow table type (isEmpty_memberPath named _) value

theorem isText_unknownBelow (table : Table) (type : String) {path : String}
    (named : path.isEmpty = false) (value : Value) :
    ∀ found ∈ unknownBelow table type path value, found.isText := by
  cases value with
  | map members =>
    rw [unknownBelow]
    split
    · exact isText_unknownMembers table _ named members
    · exact isText_unknownValues table _ path members
  | list items =>
    rw [unknownBelow]
    exact isText_unknownItems table _ path 0 items
  | _ =>
    rw [unknownBelow]
    · exact List.forall_mem_nil _
    · exact nofun
    · exact nofun

theorem isText_unknownValues (table : Table) (model : Option String) (path : String)
    (members : Members) : ∀ found ∈ unknownValues table model path members, found.isText := by
  cases members with
  | nil =>
    rw [unknownValues]
    exact List.forall_mem_nil _
  | cons member rest =>
    obtain ⟨key, value⟩ := member
    rw [unknownValues]
    have here := isText_unknownFields table model (isEmpty_dot path key.plain) value
    exact List.forall_mem_append.mpr ⟨here, isText_unknownValues table model path rest⟩

theorem isText_unknownItems (table : Table) (model : Option String) (path : String)
    (index : Nat) (items : List Value) :
    ∀ found ∈ unknownItems table model path index items, found.isText := by
  cases items with
  | nil =>
    rw [unknownItems]
    exact List.forall_mem_nil _
  | cons item rest =>
    rw [unknownItems]
    have here := isText_unknownFields table model (isEmpty_itemPath path index) item
    exact List.forall_mem_append.mpr ⟨here, isText_unknownItems table model path (index + 1) rest⟩

end

theorem Table.isNamed_of_model? {model : String} (h : table.model? model = some declared) :
    declared.isNamed :=
  List.all_eq_true.mp table.named declared (List.mem_of_find?_eq_some h)

/-- No model declares a field without a name. -/
theorem type?_empty {model : String} (h : table.model? model = some declared) :
    declared.type? "" = none := by
  obtain ⟨-, filled⟩ := Bool.and_eq_true_iff.mp (Table.isNamed_of_model? h)
  rw [Model.type?, List.find?_eq_none.mpr, Option.map_none]
  intro field hfield
  simpa using List.all_eq_true.mp filled field hfield

/-- The paths from an object whose keys are text are text. -/
theorem isText_unknownFields_root (table : Table) (model : Option String) {object : Value}
    (keyed : object.hasTextKeys) :
    ∀ found ∈ unknownFields table model "" object, found.isText := by
  cases object with
  | map members =>
    rw [unknownFields]
    split
    · rename_i declared hmodel
      obtain ⟨name, -, hname⟩ := Option.bind_eq_some_iff.mp hmodel
      have unnamed := type?_empty hname
      rw [Value.hasTextKeys, Value.members_map] at keyed
      clear hmodel
      induction members with
      | nil =>
        rw [unknownMembers]
        exact List.forall_mem_nil _
      | cons member rest ih =>
        obtain ⟨key, value⟩ := member
        rw [List.all_cons, Bool.and_eq_true, Value.isText_iff] at keyed
        obtain ⟨⟨field, rfl⟩, keyed⟩ := keyed
        rw [unknownMembers_cons]
        refine List.forall_mem_append.mpr ⟨?_, ih keyed⟩
        rcases unknownAt_cases table declared "" (.text field) value with
          heq | ⟨_, type, hkey, htype, heq⟩
        · rw [heq]
          exact List.forall_mem_singleton.mpr rfl
        · obtain rfl := Value.text.inj hkey
          have named : field.isEmpty = false := by
            refine Bool.eq_false_iff.mpr fun empty => ?_
            rw [String.isEmpty_iff.mp empty, unnamed] at htype
            cases htype
          rw [heq]
          exact isText_unknownBelow table type named value
    · exact List.forall_mem_nil _
  | _ =>
    rw [unknownFields]
    · exact List.forall_mem_nil _
    · exact nofun

/-! ### Fields that are written -/

/-- Writing a field changes only what that field accounts for. -/
theorem unknownMembers_put {path : String} (members : Members) {value : Value}
    (same : ((members.field? name).map (unknownAt table declared path (.text name))).getD [] =
      unknownAt table declared path (.text name) value) :
    unknownMembers table declared path (members.put (.text name) value) =
      unknownMembers table declared path members := by
  induction members with
  | nil =>
    rw [Members.put, unknownMembers_cons, unknownMembers, List.append_nil]
    exact same.symm
  | cons member rest ih =>
    obtain ⟨key, old⟩ := member
    rw [Members.put, unknownMembers_cons]
    by_cases hkey : key = .text name
    · subst hkey
      rw [Members.field?_cons_self] at same
      rw [if_pos (by simp), unknownMembers_cons, ← same]
      rfl
    · rw [Members.field?_cons_of_ne hkey] at same
      rw [if_neg (mt (Value.sameKey_text_left name key).mp hkey), unknownMembers_cons, ih same]

/-- Models that declare metadata declare it as that of objects. -/
theorem eq_of_type?_metadata {model : String} (h : builtin.model? model = some declared)
    (declares : declared.type? "metadata" = some type) : type = "V1ObjectMeta" := by
  have all : builtin.models.all fun model =>
      (model.type? "metadata").all fun type => type == "V1ObjectMeta" := by decide +kernel
  have each := List.all_eq_true.mp all declared (List.mem_of_find?_eq_some h)
  rw [declares] at each
  exact beq_iff_eq.mp each

/-- A namespace in the metadata of an object is declared, and nothing below it is typed. -/
theorem unknownBelow_put_space (path : String) (own : Members) (space : Value) :
    unknownBelow builtin "V1ObjectMeta" path (.map (own.put (.text "namespace") space)) =
      unknownBelow builtin "V1ObjectMeta" path (.map own) := by
  have declares : ∃ declared, builtin.model? "V1ObjectMeta" = some declared ∧
      declared.type? "namespace" = some "str" := ⟨_, rfl, rfl⟩
  obtain ⟨declared, hmodel, htype⟩ := declares
  have untyped : builtin.model? "str" = none := by decide +kernel
  have free (value : Value) : unknownAt builtin declared path (.text "namespace") value = [] := by
    rw [unknownAt_text htype]
    exact unknownBelow_of_free untyped (by decide +kernel) _ value
  simp only [unknownBelow, hmodel]
  refine unknownMembers_put own ?_
  rw [free]
  cases Members.field? own "namespace" with
  | none => rfl
  | some old => exact free old

/-- The namespace of an object has no part in its undeclared fields. -/
theorem unknownFields_writeSpace (model : Option String) {object : Value}
    (isMap : (object.field "metadata").isMap) (space : Value) :
    unknownFields builtin model "" (Cluster.writeMetadata object "namespace" space) =
      unknownFields builtin model "" object := by
  cases object with
  | map members =>
    rw [Cluster.writeMetadata, Value.members_map, unknownFields, unknownFields]
    cases hmodel : model.bind builtin.model? with
    | none => rfl
    | some declared =>
      obtain ⟨name, -, hname⟩ := Option.bind_eq_some_iff.mp hmodel
      refine unknownMembers_put members ?_
      rw [Value.field, Value.members_map] at isMap
      cases found : Members.field? members "metadata" with
      | none =>
        rw [found] at isMap
        cases isMap
      | some metadata =>
        rw [found] at isMap
        cases metadata with
        | map own =>
          rw [Option.map_some, Option.getD_some, Value.ofOption_some, Value.members_map]
          cases declares : declared.type? "metadata" with
          | none => rw [unknownAt, unknownAt, declares]
          | some type =>
            rw [unknownAt_text declares, unknownAt_text declares,
              eq_of_type?_metadata hname declares]
            exact (unknownBelow_put_space _ own space).symm
        | _ => cases isMap
  | _ => cases isMap

theorem lookupObject_eq {object : Value} (isMap : object.isMap) :
    lookupObject object = lookup (object.field "apiVersion") (object.field "kind") := by
  cases object with
  | map members => rfl
  | _ => cases isMap

/-- A kind and an API version can be looked up if they are text where they are present. -/
theorem exists_lookup {version kind : Value} (hversion : version.isTextOrAbsent)
    (hkind : kind.isTextOrAbsent) : ∃ info, lookup version kind = .ok info := by
  unfold lookup
  by_cases present : kind.isTruthy
  · rw [if_pos present]
    obtain ⟨name, rfl⟩ := Value.exists_text hkind present
    have split : ∃ parts, splitVersion version = .ok parts := by
      unfold splitVersion Value.orElse
      by_cases there : version.isTruthy
      · rw [if_pos there]
        obtain ⟨text, rfl⟩ := Value.exists_text hversion there
        exact ⟨_, rfl⟩
      · rw [if_neg there]
        exact ⟨_, rfl⟩
    obtain ⟨parts, hparts⟩ := split
    rw [normalizeGroup, hparts]
    exact ⟨_, rfl⟩
  · rw [if_neg present]
    exact ⟨_, rfl⟩

end Schema

namespace Manifest

/-! ### Texts of paths -/

theorem exists_pathTexts {paths : List Value} (h : ∀ path ∈ paths, path.isText) :
    ∃ texts, pathTexts paths = .ok texts := by
  induction paths with
  | nil => exact ⟨[], rfl⟩
  | cons path rest ih =>
    obtain ⟨first, others⟩ := List.forall_mem_cons.mp h
    obtain ⟨name, rfl⟩ := Value.isText_iff.mp first
    obtain ⟨texts, htexts⟩ := ih others
    exact ⟨name :: texts, by rw [pathTexts, htexts]; rfl⟩

theorem pathTexts_eq_nil_iff {paths : List Value} : pathTexts paths = .ok [] ↔ paths = [] := by
  cases paths with
  | nil => exact ⟨fun _ => rfl, fun _ => rfl⟩
  | cons path rest =>
    refine ⟨fun h => ?_, nofun⟩
    cases path with
    | text name =>
      rw [pathTexts] at h
      cases hrest : pathTexts rest <;> rw [hrest] at h <;> cases h
    | _ => cases h

/-- Undeclared fields can be looked for if names are text, and keys as well where there is a
model. -/
theorem exists_undeclaredPaths {object : Value} (isMap : object.isMap)
    (version : (object.field "apiVersion").isTextOrAbsent)
    (kind : (object.field "kind").isTextOrAbsent)
    (keyed : ∀ info, lookupObject object = .ok info → info.isSupported → object.hasTextKeys) :
    ∃ paths, undeclaredPaths object = .ok paths := by
  obtain ⟨info, hinfo⟩ := exists_lookup version kind
  rw [← lookupObject_eq isMap] at hinfo
  rw [undeclaredPaths, hinfo]
  apply exists_pathTexts
  cases hmodel : info.model with
  | none =>
    rw [unknownFields_none]
    exact List.forall_mem_nil _
  | some model =>
    refine isText_unknownFields_root Schema.builtin _ (keyed info hinfo ?_)
    rw [KindInfo.isSupported, hmodel]
    rfl

/-- What the search for undeclared fields finds in an object does not depend on its namespace. -/
theorem undeclaredPaths_writeSpace {object : Value} (isMap : (object.field "metadata").isMap)
    (space : Value) : undeclaredPaths (Cluster.writeMetadata object "namespace" space) =
      undeclaredPaths object := by
  have objectMap : object.isMap := by
    cases object with
    | map => rfl
    | _ => cases isMap
  have kept : lookupObject (Cluster.writeMetadata object "namespace" space) =
      lookupObject object := by
    rw [lookupObject_eq objectMap, lookupObject_eq rfl, Cluster.writeMetadata]
    simp only [Value.field, Value.members_map, Members.field?_put]
    rfl
  rw [undeclaredPaths, undeclaredPaths, kept]
  cases hinfo : lookupObject object with
  | error fault => rfl
  | ok info => exact congrArg pathTexts (unknownFields_writeSpace info.model isMap space)

end Manifest

end Reconciler

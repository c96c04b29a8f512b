import Reconciler.Proofs.Schema.Elements
import Reconciler.Proofs.Value.Decidable

/-!
# Undeclared fields of typed mappings

A model types the mapping it is given for, and through the fields it declares further mappings
below: the value of a field whose type is a model, and the items or members of the value of a
field whose elements have a model. A spot is a sequence of steps down from a value. The search
for undeclared fields finds the spots of the undeclared keys of all typed mappings, each once and
in the order of the document, and spells each by its steps. The spots do not depend on the path
at which the search begins, so a path only stands before what is found without one.

All this is about any table of models, and what the elements of a field are is read off the text of
its type.
-/

namespace Reconciler.Schema

/-- A step from a value to one of its parts, with the position of the part. -/
inductive Step where
  | member (position : Nat) (key : Value)
  | item (position : Nat)

/-- The position of the part that a step leads to. -/
def Step.position : Step → Nat
  | .member position _ | .item position => position

/-- A step as paths spell it. -/
def Step.text : Step → String
  | .member _ key => "." ++ key.plain
  | .item position => "[" ++ toString position ++ "]"

/-- The path of a spot below a value that has a path. -/
def pathFrom (path : String) (spot : List Step) : String :=
  spot.foldl (fun path step => path ++ step.text) path

/-- The path of a spot below a value without a path: the key of its first step stands alone. -/
def pathOf : List Step → String
  | .member _ key :: rest => pathFrom key.plain rest
  | spot => pathFrom "" spot

/-- The first of two spots comes before the other in the order of the document: where they part,
it goes to an earlier position. -/
def Precedes (x y : List Step) : Prop :=
  ∃ front a b xs ys, x = front ++ a :: xs ∧ y = front ++ b :: ys ∧ a.position < b.position

/-- The type that a model declares for a key; only text names a field. -/
def Model.typeAt? (declared : Model) : Value → Option String
  | .text name => declared.type? name
  | _ => none

/-- What the value of a field of a given type holds, with the steps to it and its type: the
value itself, and its elements if it is a list or a mapping. -/
inductive Holds (type : String) : Value → List Step → String → Value → Prop
  | itself (value : Value) : Holds type value [] type value
  | item {items : List Value} {index : Nat} {item : Value} {element : String}
      (elements : HasElements type element) (there : items[index]? = some item) :
      Holds type (.list items) [.item index] element item
  | entry {entries : Members} {index : Nat} {name entry : Value} {element : String}
      (elements : HasElements type element) (there : entries[index]? = some (name, entry)) :
      Holds type (.map entries) [.member index name] element entry

/-- A mapping is typed if it has a model itself, or if it is typed below what a declared field
of a typed mapping holds. -/
inductive IsTyped (table : Table) : Option String → Value → List Step → Model → Members → Prop
  | here {model : Option String} {declared : Model} {members : Members}
      (typed : model.bind table.model? = some declared) :
      IsTyped table model (.map members) [] declared members
  | within {model : Option String} {inside : String} {declared inner : Model}
      {members own : Members} {position : Nat} {key value part : Value} {type : String}
      {steps front : List Step} (typed : model.bind table.model? = some declared)
      (there : members[position]? = some (key, value)) (declares : declared.typeAt? key = some type)
      (holds : Holds type value steps inside part)
      (rest : IsTyped table (some inside) part front inner own) :
      IsTyped table model (.map members) (.member position key :: (steps ++ front)) inner own

/-- The spot of an undeclared key of a typed mapping. -/
def IsUndeclared (table : Table) (model : Option String) (object : Value) (spot : List Step) :
    Prop :=
  ∃ front declared members position key value, IsTyped table model object front declared members ∧
    members[position]? = some (key, value) ∧ declared.typeAt? key = none ∧
    spot = front ++ [.member position key]

/-- The spot of an undeclared key below the value of a declared field. -/
def IsBelow (table : Table) (type : String) (value : Value) (spot : List Step) : Prop :=
  ∃ steps inside part rest, Holds type value steps inside part ∧
    IsUndeclared table (some inside) part rest ∧ spot = steps ++ rest

variable {α : Type} {table : Table} {model : Option String} {declared : Model} {members : Members}
  {type : String} {spot front : List Step}

/-! ### Models of types -/

theorem bind_modelOf (type : Option String) :
    (table.modelOf type).bind table.model? = type.bind table.model? := by
  unfold Table.modelOf
  split
  · rfl
  · rename_i free
    rw [Table.isModel, Bool.not_eq_true, Option.isSome_eq_false_iff,
      Option.isNone_iff_eq_none] at free
    rw [free, Option.bind_none]

@[simp] theorem unknownFields_modelOf (type : Option String) (path : String) (value : Value) :
    unknownFields table (table.modelOf type) path value = unknownFields table type path value := by
  cases value <;> simp only [unknownFields, bind_modelOf]

theorem unknownAt_of_declared {key : Value} (declares : declared.typeAt? key = some type)
    (path : String) (value : Value) : unknownAt table declared path key value =
      unknownBelow table type (memberPath path key).plain value := by
  cases key with
  | text name => exact unknownAt_text declares path value
  | _ => cases declares

theorem unknownAt_of_undeclared {key : Value} (undeclared : declared.typeAt? key = none)
    (path : String) (value : Value) :
    unknownAt table declared path key value = [memberPath path key] := by
  cases key with
  | text name =>
    rw [Model.typeAt?] at undeclared
    rw [unknownAt, undeclared]
  | _ => rfl

/-! ### Searches along positions -/

theorem unknownMembers_eq_flatMap (declared : Model) (path : String) (members : Members) (n : Nat) :
    unknownMembers table declared path members = (members.zipIdx n).flatMap fun entry =>
      unknownAt table declared path entry.1.1 entry.1.2 := by
  induction members generalizing n with
  | nil => rw [unknownMembers]; rfl
  | cons member rest ih =>
    rw [unknownMembers_cons, ih (n + 1), List.zipIdx_cons, List.flatMap_cons]

theorem unknownValues_eq_flatMap (model : Option String) (path : String) (members : Members)
    (n : Nat) : unknownValues table model path members = (members.zipIdx n).flatMap fun entry =>
      unknownFields table model (path ++ "." ++ entry.1.1.plain) entry.1.2 := by
  induction members generalizing n with
  | nil => rw [unknownValues]; rfl
  | cons member rest ih =>
    rw [unknownValues, ih (n + 1), List.zipIdx_cons, List.flatMap_cons]

theorem unknownItems_eq_flatMap (model : Option String) (path : String) (items : List Value)
    (n : Nat) : unknownItems table model path n items = (items.zipIdx n).flatMap fun entry =>
      unknownFields table model (itemPath path entry.2) entry.1 := by
  induction items generalizing n with
  | nil => rw [unknownItems]; rfl
  | cons item rest ih =>
    rw [unknownItems, ih (n + 1), List.zipIdx_cons, List.flatMap_cons]

/-! ### Spots in order -/

theorem Precedes.cons (step : Step) {x y : List Step} (h : Precedes x y) :
    Precedes (step :: x) (step :: y) := by
  obtain ⟨front, a, b, xs, ys, rfl, rfl, hlt⟩ := h
  exact ⟨step :: front, a, b, xs, ys, rfl, rfl, hlt⟩

theorem Precedes.ne {x y : List Step} (h : Precedes x y) : x ≠ y := by
  obtain ⟨front, a, b, xs, ys, rfl, rfl, hlt⟩ := h
  intro same
  obtain ⟨rfl, -⟩ := List.cons.inj (List.append_cancel_left same)
  exact Nat.lt_irrefl _ hlt

theorem isEmpty_append_text {path : String} (named : path.isEmpty = false) (step : Step) :
    (path ++ step.text).isEmpty = false := by
  rw [String.isEmpty_eq_false_iff] at named ⊢
  simp [named]

theorem pathFrom_append (front path : String) (spot : List Step) :
    pathFrom (front ++ path) spot = front ++ pathFrom path spot := by
  unfold pathFrom
  induction spot generalizing path with
  | nil => rfl
  | cons step rest ih => rw [List.foldl_cons, List.foldl_cons, String.append_assoc, ih]

/-- A search from a path finds exactly the spots with a property, each once, in order and spelled
from the path. -/
structure IsFound (spots : List (List Step)) (found : String → List Value)
    (sought : List Step → Prop) : Prop where
  spelled : ∀ path, path.isEmpty = false →
    found path = spots.map fun spot => .text (pathFrom path spot)
  ordered : spots.Pairwise Precedes
  exact : ∀ spot, spot ∈ spots ↔ sought spot

namespace IsFound

variable {spots more : List (List Step)} {found found' : String → List Value}
  {sought sought' : List Step → Prop}

theorem congr (h : IsFound spots found sought)
    (same : ∀ path, path.isEmpty = false → found' path = found path)
    (also : ∀ spot, sought' spot ↔ sought spot) : IsFound spots found' sought' where
  spelled path named := (same path named).trans (h.spelled path named)
  ordered := h.ordered
  exact spot := (h.exact spot).trans (also spot).symm

theorem nothing (none : ∀ spot, ¬ sought spot) : IsFound [] (fun _ => []) sought where
  spelled _ _ := rfl
  ordered := List.Pairwise.nil
  exact spot := ⟨nofun, fun h => absurd h (none spot)⟩

theorem single (step : Step) :
    IsFound [[step]] (fun path => [.text (path ++ step.text)]) (· = [step]) where
  spelled _ _ := rfl
  ordered := List.pairwise_singleton _ _
  exact _ := List.mem_singleton

/-- A search after a first step. -/
theorem after (step : Step) (h : IsFound spots found sought) :
    IsFound (spots.map (step :: ·)) (fun path => found (path ++ step.text))
      (fun spot => ∃ rest, spot = step :: rest ∧ sought rest) where
  spelled path named := by
    rw [h.spelled _ (isEmpty_append_text named step), List.map_map]
    rfl
  ordered := List.pairwise_map.mpr (h.ordered.imp (Precedes.cons step))
  exact spot := by
    rw [List.mem_map]
    constructor
    · rintro ⟨rest, hrest, rfl⟩
      exact ⟨rest, rfl, (h.exact rest).mp hrest⟩
    · rintro ⟨rest, rfl, hrest⟩
      exact ⟨rest, (h.exact rest).mpr hrest, rfl⟩

/-- One search after another, where all that the first finds comes before. -/
theorem append (first : IsFound spots found sought) (second : IsFound more found' sought')
    (before : ∀ x y, sought x → sought' y → Precedes x y) :
    IsFound (spots ++ more) (fun path => found path ++ found' path)
      (fun spot => sought spot ∨ sought' spot) where
  spelled path named := by
    rw [first.spelled path named, second.spelled path named, List.map_append]
  ordered := List.pairwise_append.mpr ⟨first.ordered, second.ordered, fun x hx y hy =>
    before x y ((first.exact x).mp hx) ((second.exact y).mp hy)⟩
  exact spot := by rw [List.mem_append, first.exact, second.exact]

end IsFound

/-- A search through a list whose entries each account for spots that begin at their position. -/
theorem exists_isFound_zipIdx (found : α → Nat → String → List Value)
    (sought : α → Nat → List Step → Prop)
    (starts : ∀ x i spot, sought x i spot → ∃ step rest, spot = step :: rest ∧ step.position = i)
    (xs : List α) (n : Nat)
    (each : ∀ x i, (x, i) ∈ xs.zipIdx n → ∃ spots, IsFound spots (found x i) (sought x i)) :
    ∃ spots, IsFound spots
      (fun path => (xs.zipIdx n).flatMap fun entry => found entry.1 entry.2 path)
      (fun spot => ∃ x i, (x, i) ∈ xs.zipIdx n ∧ sought x i spot) := by
  induction xs generalizing n with
  | nil => exact ⟨[], IsFound.nothing fun _ ⟨_, _, h, _⟩ => nomatch h⟩
  | cons x rest ih =>
    rw [List.zipIdx_cons] at each ⊢
    obtain ⟨spots, hspots⟩ := each x n List.mem_cons_self
    obtain ⟨more, hmore⟩ := ih (n + 1) fun y i hy => each y i (List.mem_cons_of_mem _ hy)
    refine ⟨spots ++ more, (hspots.append hmore ?_).congr (fun _ _ => List.flatMap_cons) ?_⟩
    · -- What is found at later positions comes after all that is found here.
      rintro spot later hspot ⟨y, i, hy, hlater⟩
      obtain ⟨a, as, rfl, ha⟩ := starts x n spot hspot
      obtain ⟨b, bs, rfl, hb⟩ := starts y i later hlater
      have hlt : n + 1 ≤ i := List.le_snd_of_mem_zipIdx hy
      exact ⟨[], a, b, as, bs, rfl, rfl, by omega⟩
    · intro spot
      simp only [List.mem_cons, Prod.mk.injEq]
      constructor
      · rintro ⟨y, i, ⟨rfl, rfl⟩ | hy, hspot⟩
        · exact .inl hspot
        · exact .inr ⟨y, i, hy, hspot⟩
      · rintro (hspot | ⟨y, i, hy, hspot⟩)
        · exact ⟨x, n, .inl ⟨rfl, rfl⟩, hspot⟩
        · exact ⟨y, i, .inr hy, hspot⟩

/-! ### Undeclared keys of typed mappings -/

theorem IsTyped.exists_typed {object : Value}
    (h : IsTyped table model object front declared members) :
    ∃ own, model.bind table.model? = some own := by
  cases h with
  | here typed | within typed => exact ⟨_, typed⟩

theorem IsUndeclared.exists_typed {object : Value} (h : IsUndeclared table model object spot) :
    ∃ own, model.bind table.model? = some own := by
  obtain ⟨_, _, _, _, _, _, typed, -⟩ := h
  exact typed.exists_typed

/-- What is undeclared in an element of a field follows from the type of the elements. -/
theorem isUndeclared_element_iff {part : Value} :
    IsUndeclared table (elementType (some type)) part spot ↔
      ∃ element, HasElements type element ∧ IsUndeclared table (some element) part spot := by
  constructor
  · intro undeclared
    obtain ⟨own, hown⟩ := undeclared.exists_typed
    obtain ⟨element, found, -⟩ := Option.bind_eq_some_iff.mp hown
    rw [found] at undeclared
    exact ⟨element, hasElements_of_elementType found, undeclared⟩
  · rintro ⟨element, elements, undeclared⟩
    obtain ⟨own, hown⟩ := undeclared.exists_typed
    rw [elements.elementType_eq (ne_empty_of_model hown)]
    exact undeclared

/-- The spots that a member of a mapping with a given model accounts for, after the step to it. -/
def IsUndeclaredAt (table : Table) (declared : Model) (key value : Value) (rest : List Step) :
    Prop :=
  (declared.typeAt? key = none ∧ rest = []) ∨
    ∃ type, declared.typeAt? key = some type ∧ IsBelow table type value rest

/-- Undeclared keys are those that a member of the mapping accounts for. -/
theorem isUndeclared_map_iff (typed : model.bind table.model? = some declared) :
    IsUndeclared table model (.map members) spot ↔ ∃ member position,
      (member, position) ∈ members.zipIdx ∧
        ∃ rest, spot = .member position member.1 :: rest ∧
          IsUndeclaredAt table declared member.1 member.2 rest := by
  simp only [List.mk_mem_zipIdx_iff_getElem?]
  constructor
  · rintro ⟨front, inner, own, position, key, value, htyped, there, undeclared, rfl⟩
    cases htyped with
    | here typed' =>
      obtain rfl := Option.some.inj (typed.symm.trans typed')
      exact ⟨(key, value), position, there, [], rfl, .inl ⟨undeclared, rfl⟩⟩
    | within typed' first declares holds rest =>
      obtain rfl := Option.some.inj (typed.symm.trans typed')
      refine ⟨_, _, first, _, rfl, .inr ⟨_, declares, ?_⟩⟩
      exact ⟨_, _, _, _, holds, ⟨_, _, _, _, _, _, rest, there, undeclared, rfl⟩,
        List.append_assoc _ _ _⟩
  · rintro ⟨⟨key, value⟩, position, there, rest, rfl, ⟨undeclared, rfl⟩ | ⟨type, declares, below⟩⟩
    · exact ⟨[], declared, members, position, key, value, .here typed, there, undeclared, rfl⟩
    · obtain ⟨steps, inside, part, tail, holds, hund, rfl⟩ := below
      obtain ⟨front, inner, own, last, name, held, htyped, last_there, undeclared, rfl⟩ := hund
      exact ⟨_, inner, own, last, name, held, .within typed there declares holds htyped, last_there,
        undeclared, by rw [List.cons_append, List.append_assoc]⟩

theorem not_isUndeclared_of_untyped (untyped : model.bind table.model? = none) (value : Value) :
    ¬ IsUndeclared table model value spot := by
  intro undeclared
  obtain ⟨own, hown⟩ := undeclared.exists_typed
  cases untyped.symm.trans hown

theorem not_isUndeclared_of_not_map {value : Value} (h : value.isMap = false) :
    ¬ IsUndeclared table model value spot := by
  rintro ⟨_, _, _, _, _, _, htyped, -⟩
  cases htyped <;> cases h

/-- Undeclared keys below a list are below its items. -/
theorem isBelow_list_iff {items : List Value} : IsBelow table type (.list items) spot ↔
    ∃ item index, (item, index) ∈ items.zipIdx ∧
      ∃ rest, spot = .item index :: rest ∧
        IsUndeclared table (elementType (some type)) item rest := by
  simp only [List.mk_mem_zipIdx_iff_getElem?]
  constructor
  · rintro ⟨steps, inside, part, rest, holds, hund, rfl⟩
    cases holds with
    | itself => exact absurd hund (not_isUndeclared_of_not_map rfl)
    | item elements there =>
      exact ⟨_, _, there, rest, rfl, isUndeclared_element_iff.mpr ⟨_, elements, hund⟩⟩
  · rintro ⟨item, index, there, rest, rfl, hund⟩
    obtain ⟨element, elements, hund⟩ := isUndeclared_element_iff.mp hund
    exact ⟨_, _, item, rest, .item elements there, hund, rfl⟩

/-- Undeclared keys below a mapping that its own type does not type are below its values. -/
theorem isBelow_map_iff (untyped : table.model? type = none) :
    IsBelow table type (.map members) spot ↔ ∃ member index, (member, index) ∈ members.zipIdx ∧
      ∃ rest, spot = .member index member.1 :: rest ∧
        IsUndeclared table (elementType (some type)) member.2 rest := by
  simp only [List.mk_mem_zipIdx_iff_getElem?]
  constructor
  · rintro ⟨steps, inside, part, rest, holds, hund, rfl⟩
    cases holds with
    | itself =>
      have free : (some type).bind table.model? = none := untyped
      exact absurd hund (not_isUndeclared_of_untyped free _)
    | entry elements there =>
      exact ⟨_, _, there, rest, rfl, isUndeclared_element_iff.mpr ⟨_, elements, hund⟩⟩
  · rintro ⟨⟨name, entry⟩, index, there, rest, rfl, hund⟩
    obtain ⟨element, elements, hund⟩ := isUndeclared_element_iff.mp hund
    exact ⟨_, _, entry, rest, .entry elements there, hund, rfl⟩

/-- Below the value of a field whose type is a model are the undeclared keys of that value. -/
theorem isBelow_iff_of_model (typed : table.model? type = some declared) (value : Value) :
    IsBelow table type value spot ↔ IsUndeclared table (some type) value spot := by
  have plain : (elementType (some type)).bind table.model? = none := by
    rw [elementType_of_model typed, Option.bind_none]
  constructor
  · rintro ⟨steps, inside, part, rest, holds, hund, rfl⟩
    cases holds with
    | itself => exact hund
    | item elements | entry elements =>
      exact absurd (isUndeclared_element_iff.mpr ⟨_, elements, hund⟩)
        (not_isUndeclared_of_untyped plain _)
  · exact fun hund => ⟨[], _, value, spot, .itself value, hund, rfl⟩

theorem not_isBelow_of_plain {value : Value} (h : value.isMap = false)
    (notList : ∀ items, value ≠ .list items) : ¬ IsBelow table type value spot := by
  rintro ⟨steps, inside, part, rest, holds, hund, rfl⟩
  cases holds with
  | itself => exact not_isUndeclared_of_not_map h hund
  | item => exact notList _ rfl
  | entry => cases h

/-! ### What the search finds -/

/-- The search from a value that is typed, and from the value of a declared field, finds what is
undeclared. -/
def IsSearched (table : Table) (value : Value) : Prop :=
  (∀ model, ∃ spots,
      IsFound spots (unknownFields table model · value) (IsUndeclared table model value)) ∧
    ∀ type, ∃ spots, IsFound spots (unknownBelow table type · value) (IsBelow table type value)

theorem isFound_of_not_map (model : Option String) {value : Value} (h : value.isMap = false) :
    IsFound [] (unknownFields table model · value) (IsUndeclared table model value) := by
  refine (IsFound.nothing fun _ => not_isUndeclared_of_not_map h).congr (fun path _ => ?_)
    fun _ => Iff.rfl
  cases value with
  | map => cases h
  | _ => simp [unknownFields]

theorem isSearched_of_plain {value : Value} (h : value.isMap = false)
    (notList : ∀ items, value ≠ .list items) : IsSearched table value := by
  refine ⟨fun model => ⟨[], isFound_of_not_map model h⟩, fun type => ⟨[], ?_⟩⟩
  refine (IsFound.nothing fun _ => not_isBelow_of_plain h notList).congr (fun path _ => ?_)
    fun _ => Iff.rfl
  cases value with
  | map => cases h
  | list items => exact absurd rfl (notList items)
  | _ => simp [unknownBelow]

/-- The search in the parts of a value that one model types, after a step to each. -/
theorem exists_isFound_parts (model : Option String) (step : α → Nat → Step) (part : α → Value)
    (placed : ∀ x i, (step x i).position = i) {xs : List α}
    (each : ∀ x ∈ xs, IsSearched table (part x)) : ∃ spots, IsFound spots
      (fun path => xs.zipIdx.flatMap fun entry =>
        unknownFields table model (path ++ (step entry.1 entry.2).text) (part entry.1))
      (fun spot => ∃ x i, (x, i) ∈ xs.zipIdx ∧
        ∃ rest, spot = step x i :: rest ∧ IsUndeclared table model (part x) rest) := by
  refine exists_isFound_zipIdx
    (fun x i path => unknownFields table model (path ++ (step x i).text) (part x))
    (fun x i spot => ∃ rest, spot = step x i :: rest ∧ IsUndeclared table model (part x) rest)
    (fun x i _ ⟨rest, hspot, _⟩ => ⟨step x i, rest, hspot, placed x i⟩) xs 0 fun x i hx => ?_
  obtain ⟨spots, h⟩ := (each x (List.fst_mem_of_mem_zipIdx hx)).1 model
  exact ⟨_, h.after (step x i)⟩

theorem isSearched_list {items : List Value} (each : ∀ item ∈ items, IsSearched table item) :
    IsSearched table (.list items) := by
  refine ⟨fun model => ⟨[], isFound_of_not_map model rfl⟩, fun type => ?_⟩
  obtain ⟨spots, h⟩ := exists_isFound_parts (elementType (some type)) (fun _ => .item) id
    (fun _ _ => rfl) each
  refine ⟨spots, h.congr (fun path _ => ?_) fun _ => isBelow_list_iff⟩
  rw [unknownBelow, unknownItems_eq_flatMap]
  simp only [unknownFields_modelOf, itemPath, Step.text, String.append_assoc, id]

/-- The step to a member, as a search from a path spells it. -/
theorem memberPath_of_named {path : String} (named : path.isEmpty = false) (position : Nat)
    (key : Value) : memberPath path key = .text (path ++ (Step.member position key).text) := by
  rw [memberPath, named, if_neg Bool.false_ne_true, Step.text, String.append_assoc]

/-- What a member accounts for is found. -/
theorem exists_isFound_member (declared : Model) (position : Nat) (key : Value) {value : Value}
    (searched : IsSearched table value) : ∃ spots,
    IsFound spots (unknownAt table declared · key value)
      fun spot => ∃ rest, spot = .member position key :: rest ∧
        IsUndeclaredAt table declared key value rest := by
  cases declares : declared.typeAt? key with
  | none =>
    refine ⟨_, (IsFound.single (.member position key)).congr (fun path named => ?_) fun spot => ?_⟩
    · rw [unknownAt_of_undeclared declares, memberPath_of_named named position]
    · simp [IsUndeclaredAt, declares]
  | some type =>
    obtain ⟨spots, h⟩ := searched.2 type
    refine ⟨_, (h.after (.member position key)).congr (fun path named => ?_) fun spot => ?_⟩
    · rw [unknownAt_of_declared declares, memberPath_of_named named position, Value.plain_text]
    · simp [IsUndeclaredAt, declares]

/-- The undeclared keys of a mapping, and those below its declared fields, are found. -/
theorem exists_isFound_members (model : Option String) {members : Members}
    (each : ∀ member ∈ members, IsSearched table member.2) :
    ∃ spots, IsFound spots (unknownFields table model · (.map members))
      (IsUndeclared table model (.map members)) := by
  cases typed : model.bind table.model? with
  | none =>
    refine ⟨_, (IsFound.nothing fun _ => not_isUndeclared_of_untyped typed (.map members)).congr
      (fun path _ => ?_) fun _ => Iff.rfl⟩
    simp only [unknownFields, typed]
  | some declared =>
    obtain ⟨spots, h⟩ := exists_isFound_zipIdx
      (fun member _ path => unknownAt table declared path member.1 member.2)
      (fun member position spot => ∃ rest, spot = .member position member.1 :: rest ∧
        IsUndeclaredAt table declared member.1 member.2 rest)
      (fun _ _ _ ⟨rest, hspot, _⟩ => ⟨_, rest, hspot, rfl⟩) members 0
      fun member position hmember => exists_isFound_member declared position member.1
        (each member (List.fst_mem_of_mem_zipIdx hmember))
    refine ⟨spots, h.congr (fun path _ => ?_) fun _ => isUndeclared_map_iff typed⟩
    simp only [unknownFields, typed]
    exact unknownMembers_eq_flatMap declared path members 0

theorem isSearched_map {members : Members} (each : ∀ member ∈ members, IsSearched table member.2) :
    IsSearched table (.map members) := by
  refine ⟨fun model => exists_isFound_members model each, fun type => ?_⟩
  cases typed : table.model? type with
  | some declared =>
    obtain ⟨spots, h⟩ := exists_isFound_members (some type) each
    refine ⟨spots, h.congr (fun path _ => ?_) fun _ => isBelow_iff_of_model typed _⟩
    simp only [unknownBelow, unknownFields, typed, Option.bind_some]
  | none =>
    obtain ⟨spots, h⟩ := exists_isFound_parts (elementType (some type))
      (fun member index => .member index member.1) Prod.snd (fun _ _ => rfl) each
    refine ⟨spots, h.congr (fun path _ => ?_) fun _ => isBelow_map_iff typed⟩
    simp only [unknownBelow, typed]
    rw [unknownValues_eq_flatMap _ _ _ 0]
    simp only [unknownFields_modelOf, Step.text, String.append_assoc]

theorem isSearched (table : Table) (value : Value) : IsSearched table value := by
  induction value using Value.induction with
  | leaf value isLeaf =>
    refine isSearched_of_plain ?_ ?_
    · cases value with
      | map => cases isLeaf
      | _ => rfl
    · rintro items rfl
      cases isLeaf
  | list items each => exact isSearched_list each
  | tuple | set => exact isSearched_of_plain rfl fun _ h => by cases h
  | map members each => exact isSearched_map fun member hmember => (each member hmember).2

/-! ### Searches without a path -/

/-- What stands before the path of a field stands before all that is found below it. -/
theorem unknownBelow_append (type : String) (front : String) {path : String}
    (named : path.isEmpty = false) (value : Value) : unknownBelow table type (front ++ path) value =
      (unknownBelow table type path value).map fun found => .text (front ++ found.plain) := by
  obtain ⟨spots, h⟩ := (isSearched table value).2 type
  have longer : (front ++ path).isEmpty = false := by
    rw [String.isEmpty_eq_false_iff] at named ⊢
    simp [named]
  rw [h.spelled _ longer, h.spelled path named, List.map_map]
  simp only [pathFrom_append, Function.comp_def, Value.plain_text]

theorem unknownAt_under (unnamed : declared.type? "" = none) {path : String}
    (named : path.isEmpty = false) (name : String) (value : Value) :
    unknownAt table declared path (.text name) value =
      (unknownAt table declared "" (.text name) value).map
        fun found => .text (path ++ "." ++ found.plain) := by
  have here : memberPath path (.text name) = .text (path ++ "." ++ name) := by
    rw [memberPath, named]
    rfl
  have root : memberPath "" (.text name) = .text name := rfl
  cases declares : declared.type? name with
  | none =>
    have undeclared : declared.typeAt? (.text name) = none := declares
    rw [unknownAt_of_undeclared undeclared, unknownAt_of_undeclared undeclared, here, root]
    rfl
  | some type =>
    have filled : name.isEmpty = false := by
      refine Bool.eq_false_iff.mpr fun empty => ?_
      rw [String.isEmpty_iff.mp empty, unnamed] at declares
      cases declares
    rw [unknownAt_text declares, unknownAt_text declares, here, root]
    exact unknownBelow_append type (path ++ ".") filled value

/-- A path stands before what is found without it. -/
theorem unknownFields_under (model : Option String) {object : Value} (keyed : object.hasTextKeys)
    {path : String} (named : path.isEmpty = false) : unknownFields table model path object =
      (unknownFields table model "" object).map fun found =>
        .text (path ++ "." ++ found.plain) := by
  cases object with
  | map members =>
    rw [unknownFields, unknownFields]
    cases typed : model.bind table.model? with
    | none => rfl
    | some declared =>
      obtain ⟨name, -, hname⟩ := Option.bind_eq_some_iff.mp typed
      rw [Value.hasTextKeys, Value.members_map] at keyed
      clear typed
      induction members with
      | nil => simp [unknownMembers]
      | cons member rest ih =>
        obtain ⟨key, value⟩ := member
        rw [List.all_cons, Bool.and_eq_true, Value.isText_iff] at keyed
        obtain ⟨⟨field, rfl⟩, keyed⟩ := keyed
        have below := ih keyed
        simp only at below ⊢
        rw [unknownMembers_cons, unknownMembers_cons, List.map_append, below,
          unknownAt_under (type?_empty hname) named]
  | _ => simp [unknownFields]

/-- Texts are known from what they are after the same text. -/
theorem eq_map_of_append (front : String) (name : α → String) {found : List Value} {xs : List α}
    (texts : ∀ value ∈ found, value.isText)
    (same : found.map (fun value => front ++ value.plain) = xs.map fun x => front ++ name x) :
    found = xs.map fun x => .text (name x) := by
  induction found generalizing xs with
  | nil => exact (List.map_eq_nil_iff.mp same.symm) ▸ rfl
  | cons value rest ih =>
    cases xs with
    | nil => cases same
    | cons x more =>
      obtain ⟨first, others⟩ := List.forall_mem_cons.mp texts
      obtain ⟨text, rfl⟩ := Value.isText_iff.mp first
      obtain ⟨head, tail⟩ := List.cons.inj same
      rw [List.map_cons, ← ih others tail, ← (String.append_right_inj front).mp head,
        Value.plain_text]

theorem pathFrom_eq_pathOf (path : String) (position : Nat) (key : Value) (rest : List Step) :
    pathFrom path (.member position key :: rest) =
      path ++ "." ++ pathOf (.member position key :: rest) := by
  have first : pathFrom path (.member position key :: rest) =
      pathFrom (path ++ ("." ++ key.plain)) rest := rfl
  rw [first, ← String.append_assoc, pathFrom_append]
  rfl

/-- The spots found are spelled without a path as well. -/
theorem unknownFields_root (model : Option String) {object : Value} (keyed : object.hasTextKeys)
    {spots : List (List Step)}
    (h : IsFound spots (unknownFields table model · object) (IsUndeclared table model object)) :
    unknownFields table model "" object = spots.map fun spot => .text (pathOf spot) := by
  -- What is found from any path tells what is found without one.
  have named : ("root").isEmpty = false := rfl
  have spelled (spot) (hspot : spot ∈ spots) :
      pathFrom "root" spot = "root" ++ "." ++ pathOf spot := by
    obtain ⟨front, inner, own, position, key, value, typed, -, -, rfl⟩ := (h.exact spot).mp hspot
    cases typed <;> exact pathFrom_eq_pathOf _ _ _ _
  have same := (unknownFields_under model keyed named).symm.trans (h.spelled _ named)
  refine eq_map_of_append ("root" ++ ".") pathOf (isText_unknownFields_root table model keyed) ?_
  have plain := congrArg (List.map Value.plain) same
  simp only [List.map_map, Function.comp_def, Value.plain_text] at plain
  exact plain.trans (List.map_congr_left spelled)

/-! ### Below a spot -/

/-- What is undeclared below the value of a field is undeclared in each typed part it holds. -/
theorem isUndeclared_of_isBelow {inside : String} {value part : Value}
    {steps rest : List Step} (holds : Holds type value steps inside part)
    (typed : table.model? inside = some declared)
    (below : IsBelow table type value (steps ++ rest)) :
    IsUndeclared table (some inside) part rest := by
  cases holds with
  | itself => exact (isBelow_iff_of_model typed value).mp below
  | item elements there =>
    obtain ⟨item, index, hitem, tail, heq, hund⟩ := isBelow_list_iff.mp below
    obtain ⟨⟨⟩, rfl⟩ := List.cons.inj heq
    obtain rfl := Option.some.inj (there.symm.trans (List.mk_mem_zipIdx_iff_getElem?.mp hitem))
    rw [elements.elementType_eq (ne_empty_of_model typed)] at hund
    exact hund
  | entry elements there =>
    have found := elements.elementType_eq (ne_empty_of_model typed)
    have untyped : table.model? type = none := by
      refine Option.eq_none_iff_forall_ne_some.mpr fun own h => ?_
      cases (elementType_of_model h).symm.trans found
    obtain ⟨member, index, hmember, tail, heq, hund⟩ := (isBelow_map_iff untyped).mp below
    obtain ⟨⟨⟩, rfl⟩ := List.cons.inj heq
    have same := there.symm.trans (List.mk_mem_zipIdx_iff_getElem?.mp hmember)
    rw [found] at hund
    rw [(Prod.mk.inj (Option.some.inj same)).2]
    exact hund

theorem isUndeclaredAt_of_cons {key value : Value} {position : Nat} {rest : List Step}
    (typed : model.bind table.model? = some declared)
    (there : members[position]? = some (key, value))
    (undeclared : IsUndeclared table model (.map members) (.member position key :: rest)) :
    IsUndeclaredAt table declared key value rest := by
  obtain ⟨⟨name, own⟩, index, hmember, tail, heq, found⟩ :=
    (isUndeclared_map_iff typed).mp undeclared
  obtain ⟨⟨⟩, rfl⟩ := List.cons.inj heq
  have same := there.symm.trans (List.mk_mem_zipIdx_iff_getElem?.mp hmember)
  rw [(Prod.mk.inj (Option.some.inj same)).2]
  exact found

/-- What is undeclared below a typed mapping is what a member of the mapping accounts for. -/
theorem IsTyped.isUndeclaredAt {object key value : Value} {position : Nat} {rest : List Step}
    (h : IsTyped table model object front declared members)
    (there : members[position]? = some (key, value))
    (undeclared : IsUndeclared table model object (front ++ .member position key :: rest)) :
    IsUndeclaredAt table declared key value rest := by
  induction h with
  | here typed => exact isUndeclaredAt_of_cons typed there undeclared
  | within typed first declares holds inner ih =>
    obtain ⟨own, hown⟩ := inner.exists_typed
    rcases isUndeclaredAt_of_cons typed first undeclared with ⟨hnone, -⟩ | ⟨type, htype, below⟩
    · cases declares.symm.trans hnone
    · obtain rfl := Option.some.inj (declares.symm.trans htype)
      refine ih there (isUndeclared_of_isBelow holds hown ?_)
      simpa using below

/-- Nothing below the key is typed: the model does not declare it, or leaves its field free. -/
def IsFree (table : Table) (declared : Model) (key : Value) : Prop :=
  ∀ type, declared.typeAt? key = some type → table.isModel (some type) = false ∧
    ∀ element, HasElements type element → table.isModel (some element) = false

theorem not_isBelow_of_isFree {key value : Value} (free : IsFree table declared key)
    (declares : declared.typeAt? key = some type) : ¬ IsBelow table type value spot := by
  rintro ⟨steps, inside, part, rest, holds, undeclared, rfl⟩
  obtain ⟨own, hown⟩ := undeclared.exists_typed
  have typed : table.isModel (some inside) := by simp [Table.isModel, hown]
  obtain ⟨plain, parts⟩ := free type declares
  cases holds with
  | itself => exact Bool.false_ne_true (plain.symm.trans typed)
  | item elements | entry elements =>
    exact Bool.false_ne_true ((parts _ elements).symm.trans typed)

/-- The spots of the undeclared keys of typed mappings, as the search lists them. -/
structure IsListing (table : Table) (model : Option String) (object : Value)
    (spots : List (List Step)) : Prop where
  /-- What is found are the paths of the spots. -/
  spelled : unknownFields table model "" object = spots.map fun spot => .text (pathOf spot)
  /-- The spots are listed in the order of the document. -/
  ordered : spots.Pairwise Precedes
  /-- Each spot is listed once. -/
  once : spots.Nodup
  /-- Every undeclared key of a typed mapping is listed, and nothing else. -/
  exact : ∀ spot, spot ∈ spots ↔ IsUndeclared table model object spot
  /-- Nothing is listed below an undeclared key or a free field. -/
  bare : ∀ front declared members position key value,
    IsTyped table model object front declared members →
    members[position]? = some (key, value) → IsFree table declared key →
    ∀ rest, front ++ .member position key :: rest ∈ spots →
      rest = [] ∧ declared.typeAt? key = none
  /-- A path at which the search begins stands before each path found. -/
  under : ∀ path, path.isEmpty = false → unknownFields table model path object =
    (unknownFields table model "" object).map fun found => .text (path ++ "." ++ found.plain)

/-- The search for undeclared fields lists the undeclared keys of all typed mappings, whatever the
models of the table are. -/
theorem exists_isListing (table : Table) (model : Option String) {object : Value}
    (keyed : object.hasTextKeys) : ∃ spots, IsListing table model object spots := by
  obtain ⟨spots, h⟩ := (isSearched table object).1 model
  refine ⟨spots, unknownFields_root model keyed h, h.ordered, h.ordered.imp Precedes.ne, h.exact,
    ?_, fun path named => unknownFields_under model keyed named⟩
  intro front declared members position key value typed there free rest hmem
  rcases typed.isUndeclaredAt there ((h.exact _).mp hmem) with ⟨hnone, rfl⟩ | ⟨type, htype, below⟩
  · exact ⟨rfl, hnone⟩
  · exact absurd below (not_isBelow_of_isFree free htype)

/-- A table with one model, which types parts of itself in all three ways. -/
def schemaTable : Table where
  models := [⟨"V1JSONSchemaProps", [("allOf", "list[V1JSONSchemaProps]"), ("default", "object"),
    ("not", "V1JSONSchemaProps"), ("properties", "dict(str, V1JSONSchemaProps)"),
    ("type", "str")]⟩]
  named := by decide +kernel

/-- A schema with undeclared keys in the schema of a property and in that of an item. -/
def misspelledSchema : Value := .map [
  (.text "properties", .map [(.text "image", .map [(.text "type", .text "string")]),
    (.text "size", .map [(.text "typ", .text "integer")])]),
  (.text "allOf", .list [.map [], .map [(.text "not", .map [(.text "nott", .map [])])]]),
  (.text "default", .map [(.text "typ", .null)])]

theorem exists_isListing_schema : misspelledSchema.hasTextKeys ∧
    ∃ spots, IsListing schemaTable (some "V1JSONSchemaProps") misspelledSchema spots ∧
      spots.map pathOf = ["properties.size.typ", "allOf[1].not.nott"] := by
  have keyed : misspelledSchema.hasTextKeys := by decide +kernel
  obtain ⟨spots, h⟩ := exists_isListing schemaTable (some "V1JSONSchemaProps") keyed
  refine ⟨keyed, spots, h, ?_⟩
  have found : unknownFields schemaTable (some "V1JSONSchemaProps") "" misspelledSchema =
      [.text "properties.size.typ", .text "allOf[1].not.nott"] := by decide +kernel
  have plain := congrArg (List.map Value.plain) (h.spelled.symm.trans found)
  rw [List.map_map] at plain
  exact plain

/-- A pod with an undeclared key in its metadata and one in its second container. -/
example : unknownFields builtin (some "V1Pod") "" (.map [
    (.text "metadata", .map [(.text "labelz", .map [(.text "name", .text "a")]),
      (.text "labels", .map [(.text "tier", .text "web")])]),
    (.text "spec", .map [(.text "containers", .list [.map [(.text "name", .text "a")],
      .map [(.text "name", .text "b"), (.text "ready", .bool true)]])])]) =
    [.text "metadata.labelz", .text "spec.containers[1].ready"] := by
  decide +kernel

end Reconciler.Schema

import Reconciler.Proofs.Value.Json
import Reconciler.Value.Tree
import Mathlib.Data.List.Induction

/-!
# What writing to shared parts changes

A mapping with a mark stands wherever a tree has this mark, and what is written to it is seen at
all of these places and nowhere else. The lemmas here say how the value of a tree is read member
by member, and which writes do not change it. Main statement: a tree that does not carry the
marks of writes has the value that it had before them.
-/

namespace Reconciler

namespace Members

/-- Writing to a key again leaves only the later value. -/
theorem put_put (members : Members) (name : String) (value other : Value) :
    (members.put (.text name) value).put (.text name) other = members.put (.text name) other := by
  induction members with
  | nil => simp [put]
  | cons member rest ih =>
    obtain ⟨key, old⟩ := member
    by_cases h : Value.sameKey (.text name) key
    · simp [put, h]
    · simp [put, h, ih]

/-- Members that are the same up to one key are the same after writing to that key. -/
theorem put_of_put_eq {members others : Members} {name : String} {value other : Value}
    (h : members.put (.text name) value = others.put (.text name) other) (new : Value) :
    members.put (.text name) new = others.put (.text name) new := by
  rw [← put_put members name value, h, put_put]

/-- Writing what is there changes nothing. -/
theorem put_eq_self {members : Members} {name : String} {value : Value}
    (h : members.field? name = some value) : members.put (.text name) value = members := by
  induction members with
  | nil => cases h
  | cons member rest ih =>
    obtain ⟨key, old⟩ := member
    by_cases hkey : key = .text name
    · subst hkey
      rw [field?_cons_self] at h
      rw [put, if_pos (by simp), Option.some.inj h]
    · rw [field?_cons_of_ne hkey] at h
      rw [put, if_neg (mt (Value.sameKey_text_left name key).mp hkey), ih h]

/-- The order of writes to different keys does not matter if one of them is there already. -/
theorem put_comm {members : Members} {name other : String} (apart : other ≠ name)
    (present : (members.field? name).isSome) (value new : Value) :
    (members.put (.text name) value).put (.text other) new =
      (members.put (.text other) new).put (.text name) value := by
  induction members with
  | nil => cases present
  | cons member rest ih =>
    obtain ⟨key, old⟩ := member
    by_cases hname : key = .text name
    · subst hname
      simp [put, apart]
    · have unequal := mt (Value.sameKey_text_left name key).mp hname
      by_cases hother : key = .text other
      · subst hother
        simp [put, apart.symm]
      · have different := mt (Value.sameKey_text_left other key).mp hother
        rw [field?_cons_of_ne hname] at present
        simp [put, unequal, different, ih present]

/-- Writing what is not there adds it at the end. -/
theorem put_of_absent {members : Members} {name : String} (absent : members.field? name = none)
    (value : Value) : members.put (.text name) value = members ++ [(.text name, value)] := by
  induction members with
  | nil => rfl
  | cons member rest ih =>
    obtain ⟨key, old⟩ := member
    by_cases same : key = .text name
    · rw [same, field?_cons_self] at absent
      cases absent
    · rw [field?_cons_of_ne same] at absent
      rw [put, if_neg (mt (Value.sameKey_text_left name key).mp same), ih absent, List.cons_append]

/-- Writing several members that are not there adds them at the end. -/
theorem foldl_put_of_absent {members : Members} {new : List (String × Value)}
    (apart : (new.map Prod.fst).Nodup) (absent : ∀ member ∈ new, members.field? member.1 = none) :
    new.foldl (fun members member => members.put (.text member.1) member.2) members =
      members ++ new.map fun member => (.text member.1, member.2) := by
  induction new generalizing members with
  | nil => rw [List.foldl_nil, List.map_nil, List.append_nil]
  | cons member rest ih =>
    obtain ⟨fresh, apart⟩ := List.nodup_cons.mp apart
    obtain ⟨here, absent⟩ := List.forall_mem_cons.mp absent
    rw [List.foldl_cons, put_of_absent here, ih apart, List.map_cons, List.append_assoc,
      List.singleton_append]
    intro other hother
    have unequal : member.1 ≠ other.1 := fun same =>
      fresh (List.mem_map.mpr ⟨other, hother, same.symm⟩)
    rw [field?_append, absent other hother, field?_cons_text, if_neg unequal]
    rfl

end Members

namespace Value

/-- Whether a value is no collection of values, as those of leaves are. The items of a set count as
keys. -/
def isFlat : Value → Bool
  | .list _ | .tuple _ | .map _ => false
  | _ => true

theorem isMap_of_isFlat {value : Value} (h : value.isFlat) : value.isMap = false := by
  cases value <;> first | rfl | cases h

end Value

namespace Writes

variable {writes later : Writes} {mark : Nat} {name : String}

theorem apply_append (writes later : Writes) (mark : Nat) (members : Members) :
    apply (writes ++ later) mark members = apply later mark (apply writes mark members) :=
  List.foldl_append ..

theorem apply_cons (write : Write) (writes : Writes) (mark : Nat) (members : Members) :
    apply (write :: writes) mark members = apply writes mark
      (if write.mark == mark then members.put (.text write.name) write.value else members) := rfl

/-- Writes to other mappings are not seen. -/
theorem apply_eq_self (h : ∀ write ∈ writes, write.mark ≠ mark) (members : Members) :
    apply writes mark members = members := by
  induction writes with
  | nil => rfl
  | cons write rest ih =>
    obtain ⟨other, h⟩ := List.forall_mem_cons.mp h
    rw [apply_cons, if_neg (by simpa using other), ih h]

/-- A write commutes with writes to other members. -/
theorem apply_put (h : ∀ write ∈ writes, write.name ≠ name) {members : Members}
    (present : (members.field? name).isSome) (value : Value) :
    apply writes mark (members.put (.text name) value) =
      (apply writes mark members).put (.text name) value := by
  induction writes generalizing members with
  | nil => rfl
  | cons write rest ih =>
    obtain ⟨other, h⟩ := List.forall_mem_cons.mp h
    rw [apply_cons, apply_cons]
    split
    · rw [Members.put_comm other present, ih h]
      rw [Members.field?_put, if_neg other]
      exact present
    · exact ih h present

/-- A write hides earlier ones to the same member. -/
theorem put_apply (h : ∀ write ∈ later, write.mark = mark → write.name = name)
    (members : Members) (value : Value) :
    (apply later mark members).put (.text name) value = members.put (.text name) value := by
  induction later generalizing members with
  | nil => rfl
  | cons write rest ih =>
    obtain ⟨here, h⟩ := List.forall_mem_cons.mp h
    rw [apply_cons, ih h]
    split
    · rename_i same
      rw [here (by simpa using same), Members.put_put]
    · rfl

theorem last?_concat (writes : Writes) (write : Write) (mark : Nat) (name : String) :
    last? (writes ++ [write]) mark name =
      if write.mark == mark && write.name == name then some write.value
      else last? writes mark name := by
  rw [last?, List.reverse_append, List.reverse_singleton, List.singleton_append, List.find?_cons]
  cases write.mark == mark && write.name == name <;> rfl

theorem last?_append (writes later : Writes) (mark : Nat) (name : String) :
    last? (writes ++ later) mark name = (last? later mark name).or (last? writes mark name) := by
  rw [last?, last?, last?, List.reverse_append, List.find?_append, Option.map_or]

theorem last?_eq_none_iff : last? writes mark name = none ↔
    ∀ write ∈ writes, write.mark = mark → write.name ≠ name := by
  simp [last?]

/-- Writes to one mapping that all write one value to a member leave this value there. -/
theorem last?_eq_some (writes : Writes) {value : Value}
    (present : ∃ write ∈ later, write.mark = mark ∧ write.name = name)
    (same : ∀ write ∈ later, write.mark = mark → write.value = value) :
    (writes ++ later).last? mark name = some value := by
  have here : later.last? mark name = some value := by
    cases hlast : later.last? mark name with
    | none =>
      obtain ⟨write, hmem, hmark, hname⟩ := present
      exact absurd hname (last?_eq_none_iff.mp hlast write hmem hmark)
    | some last =>
      obtain ⟨write, hfind, rfl⟩ := Option.map_eq_some_iff.mp hlast
      have hmark : write.mark = mark := by
        have h := List.find?_some hfind
        simp only [Bool.and_eq_true, beq_iff_eq] at h
        exact h.1
      rw [same write (List.mem_reverse.mp (List.mem_of_find?_eq_some hfind)) hmark]
  rw [last?_append, here, Option.some_or]

/-- What has been written to the mapping with a mark. -/
def given (writes : Writes) (mark : Nat) : List (String × Value) :=
  (writes.filter fun write => write.mark == mark).map fun write => (write.name, write.value)

theorem given_append (writes later : Writes) (mark : Nat) :
    (writes ++ later).given mark = writes.given mark ++ later.given mark := by
  rw [given, List.filter_append, List.map_append, given, given]

@[simp] theorem given_nil (mark : Nat) : given [] mark = [] := rfl

@[simp] theorem given_singleton_self (mark : Nat) (name : String) (value : Value) :
    given [⟨mark, name, value⟩] mark = [(name, value)] := by
  simp [given]

theorem mem_given {write : Write} (h : write ∈ writes) :
    (write.name, write.value) ∈ writes.given write.mark :=
  List.mem_map.mpr ⟨write, List.mem_filter.mpr ⟨h, by simp⟩, rfl⟩

theorem given_eq_nil (h : ∀ write ∈ writes, write.mark ≠ mark) : writes.given mark = [] := by
  rw [given, List.filter_eq_nil_iff.mpr fun write hmem => by simpa using h write hmem, List.map_nil]

theorem apply_eq_foldl (writes : Writes) (mark : Nat) (members : Members) :
    writes.apply mark members = (writes.given mark).foldl
      (fun members member => members.put (.text member.1) member.2) members := by
  induction writes generalizing members with
  | nil => rfl
  | cons write rest ih =>
    rw [apply_cons, ih]
    by_cases same : write.mark = mark <;> simp [given, same]

theorem isSome_last? (writes : Writes) (mark : Nat) (name : String) :
    (writes.last? mark name).isSome = (writes.given mark).any (·.1 == name) := by
  rw [Bool.eq_iff_iff, Option.isSome_iff_ne_none, ne_eq, last?_eq_none_iff]
  simp [given]

/-- A read after writes sees the last one to the member, or else what was there before. -/
theorem field?_apply (writes : Writes) (mark : Nat) (members : Members) (name : String) :
    (apply writes mark members).field? name =
      (last? writes mark name).or (members.field? name) := by
  induction writes using List.reverseRecOn with
  | nil => rfl
  | append_singleton writes write ih =>
    rw [apply_append, last?_concat, apply_cons, apply_nil]
    cases hmark : write.mark == mark with
    | false => simpa using ih
    | true =>
      rw [if_pos rfl, Members.field?_put, Bool.true_and, ih]
      by_cases hname : write.name = name <;> simp [hname]

end Writes

namespace Tree

variable {tree : Tree} {trees : List Tree} {members : List (Value × Tree)}
  {writes later : Writes} {mark : Nat} {name : String}

/-! ### Parts -/

/-- A tree stands at some place of another one. -/
inductive IsIn (part : Tree) : Tree → Prop
  | self : IsIn part part
  | item {items tree} (mem : tree ∈ items) (within : IsIn part tree) : IsIn part (.list items)
  | component {items tree} (mem : tree ∈ items) (within : IsIn part tree) :
      IsIn part (.tuple items)
  | member {mark members key tree} (mem : (key, tree) ∈ members) (within : IsIn part tree) :
      IsIn part (.map mark members)

/-- The mark of a mapping. -/
def mark? : Tree → Option Nat
  | .map mark _ => mark
  | _ => none

/-- The mapping with a mark stands at some place of a tree. -/
def Carries (tree : Tree) (mark : Nat) : Prop := ∃ part, IsIn part tree ∧ part.mark? = some mark

theorem IsIn.trans {x y z : Tree} (hxy : x.IsIn y) (hyz : y.IsIn z) : x.IsIn z := by
  induction hyz with
  | self => exact hxy
  | item mem _ ih => exact .item mem ih
  | component mem _ ih => exact .component mem ih
  | member mem _ ih => exact .member mem ih

theorem Carries.of_isIn {part : Tree} (h : part.Carries mark) (within : part.IsIn tree) :
    tree.Carries mark := by
  obtain ⟨place, hplace, marked⟩ := h
  exact ⟨place, hplace.trans within, marked⟩

theorem carries_self (mark : Nat) (members : List (Value × Tree)) :
    (Tree.map (some mark) members).Carries mark := ⟨_, .self, rfl⟩

mutual

/-- Whether no mapping of a tree has a mark. -/
def isUnmarked : Tree → Bool
  | .leaf _ => true
  | .list items | .tuple items => areUnmarked items
  | .map mark members => mark.isNone && membersUnmarked members

/-- Whether no mapping of trees has a mark. -/
def areUnmarked : List Tree → Bool
  | [] => true
  | tree :: rest => isUnmarked tree && areUnmarked rest

/-- Whether no mapping in the trees of members has a mark. -/
def membersUnmarked : List (Value × Tree) → Bool
  | [] => true
  | (_, tree) :: rest => isUnmarked tree && membersUnmarked rest

end

theorem isUnmarked_of_mem (h : areUnmarked trees) (mem : tree ∈ trees) : tree.isUnmarked := by
  induction mem with
  | head => exact (Bool.and_eq_true_iff.mp h).1
  | tail _ _ ih => exact ih (Bool.and_eq_true_iff.mp h).2

theorem isUnmarked_of_member {key : Value} (h : membersUnmarked members)
    (mem : (key, tree) ∈ members) : tree.isUnmarked := by
  induction members with
  | nil => cases mem
  | cons member rest ih =>
    obtain ⟨here, others⟩ := Bool.and_eq_true_iff.mp h
    rcases List.mem_cons.mp mem with rfl | mem
    · exact here
    · exact ih others mem

theorem not_carries_of_isUnmarked (h : tree.isUnmarked) (mark : Nat) : ¬tree.Carries mark := by
  rintro ⟨part, within, marked⟩
  have unmarked : part.isUnmarked := by
    induction within with
    | self => exact h
    | item mem _ ih => exact ih (isUnmarked_of_mem h mem)
    | component mem _ ih => exact ih (isUnmarked_of_mem h mem)
    | member mem _ ih => exact ih (isUnmarked_of_member (Bool.and_eq_true_iff.mp h).2 mem)
  cases part with
  | map own members =>
    obtain rfl : own = some mark := marked
    rw [isUnmarked, Option.isNone_some, Bool.false_and] at unmarked
    cases unmarked
  | _ => cases marked

/-- The places of trees with one mark hold one tree, and the values of leaves are flat. -/
structure AreCoherent (trees : List Tree) : Prop where
  once : ∀ (x y : Tree) (mark : Nat), (∃ tree ∈ trees, x.IsIn tree) →
    (∃ tree ∈ trees, y.IsIn tree) → x.mark? = some mark → y.mark? = some mark → x = y
  plain : ∀ tree ∈ trees, ∀ value, (Tree.leaf value).IsIn tree → value.isFlat

theorem AreCoherent.mono {others : List Tree} (h : AreCoherent trees) (sub : others ⊆ trees) :
    AreCoherent others where
  once x y mark := fun ⟨tree, htree, hx⟩ ⟨other, hother, hy⟩ =>
    h.once x y mark ⟨tree, sub htree, hx⟩ ⟨other, sub hother, hy⟩
  plain tree htree := h.plain tree (sub htree)

/-! ### Members of trees -/

theorem find?_cons (key : Value) (tree : Tree) (rest : List (Value × Tree)) (name : String) :
    find? ((key, tree) :: rest) name =
      if Value.sameKey (.text name) key then some tree else find? rest name := by
  rw [find?, List.find?_cons]
  cases Value.sameKey (.text name) key <;> rfl

theorem find?_append (members others : List (Value × Tree)) (name : String) :
    find? (members ++ others) name = (find? members name).or (find? others name) := by
  rw [find?, List.find?_append, Option.map_or, find?, find?]

theorem mem_of_find? (h : find? members name = some tree) : ∃ key, (key, tree) ∈ members := by
  obtain ⟨⟨key, other⟩, hfind, rfl⟩ := Option.map_eq_some_iff.mp h
  exact ⟨key, List.mem_of_find?_eq_some hfind⟩

theorem isIn_of_find? {mark : Option Nat} (h : find? members name = some tree) :
    tree.IsIn (.map mark members) := by
  obtain ⟨key, mem⟩ := mem_of_find? h
  exact .member mem .self

theorem find?_put_of_ne {other : String} (apart : other ≠ name) (members : List (Value × Tree))
    (tree : Tree) : find? (put members (.text other) tree) name = find? members name := by
  induction members with
  | nil => simp [put, find?_cons, apart.symm]
  | cons member rest ih =>
    obtain ⟨key, old⟩ := member
    rw [put]
    split
    · rename_i same
      obtain rfl := (Value.sameKey_text_left other key).mp same
      simp [find?_cons, apart.symm]
    · rw [find?_cons, find?_cons, ih]

theorem find?_put_self (members : List (Value × Tree)) (name : String) (tree : Tree) :
    find? (put members (.text name) tree) name = some tree := by
  induction members with
  | nil => simp [put, find?_cons]
  | cons member rest ih =>
    obtain ⟨key, old⟩ := member
    by_cases same : Value.sameKey (.text name) key
    · simp [put, find?_cons, same]
    · simp [put, find?_cons, same, ih]

/-- Members with one of them replaced have no other trees than before and the new one. -/
theorem mem_put {key other : Value} {new : Tree} (h : (other, tree) ∈ put members key new) :
    tree = new ∨ (other, tree) ∈ members := by
  induction members with
  | nil =>
    obtain ⟨-, rfl⟩ := Prod.mk.inj (List.mem_singleton.mp h)
    exact .inl rfl
  | cons member rest ih =>
    obtain ⟨own, old⟩ := member
    rw [put] at h
    split at h
    · rcases List.mem_cons.mp h with heq | hrest
      · exact .inl (Prod.mk.inj heq).2
      · exact .inr (List.mem_cons_of_mem _ hrest)
    · rcases List.mem_cons.mp h with heq | hrest
      · exact .inr (heq ▸ List.mem_cons_self ..)
      · exact (ih hrest).imp_right (List.mem_cons_of_mem _)

theorem put_of_absent {members : List (Value × Tree)} {name : String}
    (absent : find? members name = none) (tree : Tree) :
    put members (.text name) tree = members ++ [(.text name, tree)] := by
  induction members with
  | nil => rfl
  | cons member rest ih =>
    obtain ⟨key, old⟩ := member
    rw [find?_cons] at absent
    rw [put]
    split at absent
    · cases absent
    · rename_i other
      rw [if_neg other, ih absent, List.cons_append]

/-! ### Values -/

theorem values_eq_map (writes : Writes) (trees : List Tree) :
    values writes trees = trees.map (value writes) := by
  induction trees with
  | nil => rw [values, List.map_nil]
  | cons tree rest ih => rw [values, ih, List.map_cons]

theorem memberValues_eq_map (writes : Writes) (members : List (Value × Tree)) :
    memberValues writes members = members.map fun member => (member.1, member.2.value writes) := by
  induction members with
  | nil => rw [memberValues, List.map_nil]
  | cons member rest ih => rw [memberValues, ih, List.map_cons]

theorem memberValues_put (writes : Writes) (members : List (Value × Tree)) (key : Value)
    (tree : Tree) : memberValues writes (put members key tree) =
      Members.put (memberValues writes members) key (tree.value writes) := by
  induction members with
  | nil => simp [put, memberValues, Members.put]
  | cons member rest ih =>
    obtain ⟨other, old⟩ := member
    by_cases h : Value.sameKey key other
    · simp [put, memberValues, Members.put, h]
    · simp [put, memberValues, Members.put, h, ih]

theorem field?_memberValues (writes : Writes) (members : List (Value × Tree)) (name : String) :
    (memberValues writes members).field? name = (find? members name).map (value writes) := by
  induction members with
  | nil =>
    rw [memberValues]
    rfl
  | cons member rest ih =>
    obtain ⟨key, tree⟩ := member
    rw [memberValues, find?_cons, Members.field?, Members.at?_cons]
    split
    · rfl
    · exact ih

/-- Putting a member puts its value where it is present. -/
theorem value_put {mark : Option Nat} (h : ∀ write ∈ writes, write.name ≠ name)
    (present : (find? members name).isSome) (new : Tree) :
    (Tree.map mark (put members (.text name) new)).value writes =
      .map (((Tree.map mark members).value writes).members.put (.text name)
        (new.value writes)) := by
  cases mark with
  | none => rw [value, value, Value.members_map, memberValues_put]
  | some mark =>
    rw [value, value, Value.members_map, memberValues_put, Writes.apply_put h]
    rw [field?_memberValues, Option.isSome_map]
    exact present

/-- A tree is read as its value is. -/
theorem map_member? (h : tree.isMap) (writes : Writes) (name : String) :
    (tree.member? writes name).map (value writes) =
      (tree.value writes).members.field? name := by
  cases tree with
  | map mark members =>
    cases mark with
    | none => rw [member?, value, Value.members_map, field?_memberValues]
    | some mark =>
      rw [member?, value, Value.members_map, Writes.field?_apply, field?_memberValues]
      cases writes.last? mark name with
      | none => simp
      | some written =>
        rw [Option.map_some, value]
        rfl
  | _ => cases h

theorem get_eq_field (h : tree.isMap) (writes : Writes) (name : String) :
    tree.get writes name = (tree.value writes).field name := by
  rw [get, map_member? h, Value.field]

theorem isMap_value (h : tree.isMap) (writes : Writes) : (tree.value writes).isMap := by
  cases tree with
  | map mark members =>
    cases mark <;> simp [value, Value.isMap]
  | _ => cases h

/-- Where nothing is written to members of a name, they are those that the tree has. -/
theorem member?_eq_find? {mark : Option Nat} (h : ∀ write ∈ writes, write.name ≠ name) :
    (Tree.map mark members).member? writes name = find? members name := by
  cases mark with
  | none => rw [member?]
  | some mark => rw [member?, Writes.last?_eq_none_iff.mpr fun write hmem _ => h write hmem]

@[simp] theorem member?_nil (mark : Option Nat) (members : List (Value × Tree)) (name : String) :
    (Tree.map mark members).member? [] name = find? members name :=
  member?_eq_find? (List.forall_mem_nil _)

theorem isIn_of_member? (h : ∀ write ∈ writes, write.name ≠ name) {part : Tree}
    (found : tree.member? writes name = some part) : part.IsIn tree := by
  cases tree with
  | map mark members =>
    rw [member?_eq_find? h] at found
    exact isIn_of_find? found
  | _ => cases found

/-- A tree that stands for a mapping is one, unless a leaf is. -/
theorem isMap_of_value (plain : ∀ value, (Tree.leaf value).IsIn tree → value.isMap = false)
    (h : (tree.value writes).isMap) : tree.isMap := by
  cases tree with
  | map => rfl
  | leaf own =>
    rw [value, plain own .self] at h
    cases h
  | _ =>
    rw [value] at h
    cases h

/-! ### Writes that are not seen -/

/-- A member is the same after writes to other mappings and to members of other names. -/
theorem member?_append (h : ∀ write ∈ later, tree.mark? = some write.mark → write.name ≠ name)
    (writes : Writes) : tree.member? (writes ++ later) name = tree.member? writes name := by
  cases tree with
  | map mark members =>
    cases mark with
    | none => rw [member?, member?]
    | some mark =>
      rw [member?, member?, Writes.last?_append, Writes.last?_eq_none_iff.mpr fun write hmem heq =>
        h write hmem (congrArg some heq.symm), Option.none_or]
  | _ => rfl

/-- What is no collection has no mappings. -/
theorem not_carries_of_isLeaf (h : (tree.value writes).isLeaf) (mark : Nat) :
    ¬tree.Carries mark := by
  rintro ⟨part, within, marked⟩
  cases tree with
  | leaf _ =>
    cases within
    cases marked
  | map own _ => cases own <;> simp [value, Value.isLeaf] at h
  | _ => simp [value, Value.isLeaf] at h

mutual

/-- Writes to mappings that a tree does not have do not change its value. -/
theorem value_append (tree : Tree) (writes : Writes)
    (h : ∀ write ∈ later, ¬tree.Carries write.mark) :
    tree.value (writes ++ later) = tree.value writes := by
  cases tree with
  | leaf _ => rw [value, value]
  | list items =>
    rw [value, value, values_append items writes fun write hmem tree htree carried =>
      h write hmem (carried.of_isIn (.item htree .self))]
  | tuple items =>
    rw [value, value, values_append items writes fun write hmem tree htree carried =>
      h write hmem (carried.of_isIn (.component htree .self))]
  | map mark members =>
    have same := memberValues_append members writes fun write hmem member hmember carried =>
      h write hmem (carried.of_isIn (.member hmember .self))
    cases mark with
    | none => rw [value, value, same]
    | some mark =>
      rw [value, value, same, Writes.apply_append, Writes.apply_eq_self]
      rintro write hmem rfl
      exact h write hmem (carries_self ..)

theorem values_append (trees : List Tree) (writes : Writes)
    (h : ∀ write ∈ later, ∀ tree ∈ trees, ¬tree.Carries write.mark) :
    values (writes ++ later) trees = values writes trees := by
  cases trees with
  | nil => simp [values]
  | cons tree rest =>
    rw [values, values, value_append tree writes fun write hmem =>
        h write hmem tree (List.mem_cons_self ..),
      values_append rest writes fun write hmem other hother =>
        h write hmem other (List.mem_cons_of_mem _ hother)]

theorem memberValues_append (members : List (Value × Tree)) (writes : Writes)
    (h : ∀ write ∈ later, ∀ member ∈ members, ¬member.2.Carries write.mark) :
    memberValues (writes ++ later) members = memberValues writes members := by
  cases members with
  | nil => simp [memberValues]
  | cons member rest =>
    obtain ⟨key, tree⟩ := member
    rw [memberValues, memberValues, value_append tree writes fun write hmem =>
        h write hmem (key, tree) (List.mem_cons_self ..),
      memberValues_append rest writes fun write hmem other hother =>
        h write hmem other (List.mem_cons_of_mem _ hother)]

end

end Tree

end Reconciler

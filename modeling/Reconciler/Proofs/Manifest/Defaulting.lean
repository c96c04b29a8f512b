import Reconciler.Manifest.Flatten
import Reconciler.Proofs.Value.Tree

/-!
# What lists give to their items

An item without a kind or an API version is given those that its list says, and what it is given
comes after its own members. A mapping with a mark is given it once, wherever it stands. Main
statement: an object to whose mark nothing else is written has its own members and those that its
position gives it.
-/

namespace Reconciler.Manifest

open Reconciler.Tree

/-- What a position gives to a mapping: in a list that says of what it is, a kind and an API version
where the mapping has none. -/
def Position.missing (position : Position) (tree : Tree) : List (String × Value) :=
  match position with
  | .document => []
  | .item kind apiVersion =>
    if kind == listKind then []
    else [("kind", .text (itemKind kind)), ("apiVersion", apiVersion)].filter fun member =>
      (tree.member? [] member.1).isNone

/-- The kind that a position gives to a mapping that has none. -/
def Position.kind? : Position → Option Value
  | .document => none
  | .item kind _ => if kind == listKind then none else some (.text (itemKind kind))

/-- What a position gives to a mapping, as members. -/
def Position.additions (position : Position) (tree : Tree) : Members :=
  (position.missing tree).map fun member => (.text member.1, member.2)

/-- A mapping as it is in its position: its own members, and after them what it is given. -/
def Position.completed (position : Position) (tree : Tree) : Value :=
  .map ((tree.value []).members ++ position.additions tree)

theorem completed_map (position : Position) (mark : Option Nat) (members : List (Value × Tree)) :
    position.completed (.map mark members) =
      .map (memberValues [] members ++ position.additions (.map mark members)) := by
  cases mark <;> simp [Position.completed, value]

/-- A mapping to which nothing is given is as it stands. -/
theorem field_completed {position : Position} {tree : Tree} (h : position.missing tree = [])
    (name : String) : (position.completed tree).field name = (tree.value []).field name := by
  rw [Position.completed, Position.additions, h, List.map_nil, List.append_nil, Value.field,
    Value.members_map, Value.field]

theorem absent_of_mem_missing {position : Position} {tree : Tree} {member : String × Value}
    (h : member ∈ position.missing tree) : tree.member? [] member.1 = none := by
  cases position with
  | document => cases h
  | item kind apiVersion =>
    rw [Position.missing] at h
    split at h
    · cases h
    · exact Option.isNone_iff_eq_none.mp (List.mem_filter.mp h).2

theorem field?_additions_eq_none (position : Position) (tree : Tree) {name : String}
    (notKind : name ≠ "kind") (notVersion : name ≠ "apiVersion") :
    (position.additions tree).field? name = none := by
  rw [Position.additions]
  cases position with
  | document => rfl
  | item kind apiVersion =>
    rw [Position.missing]
    split
    · rfl
    · simp only [List.filter_cons, List.filter_nil]
      split <;> split <;> simp [Members.field?_cons_text, notKind.symm, notVersion.symm]

theorem kind_mem_missing_iff {position : Position} {tree : Tree} {kind : Value} :
    ("kind", kind) ∈ position.missing tree ↔
      tree.member? [] "kind" = none ∧ position.kind? = some kind := by
  cases position with
  | document => simp [Position.missing, Position.kind?]
  | item own apiVersion =>
    rw [Position.missing, Position.kind?]
    split
    · simp
    · rw [List.mem_filter, Option.some.injEq]
      simp [and_comm, @eq_comm _ kind]

/-- The kind of a mapping in its position is its own, or else the one that it is given. -/
theorem field_kind_completed (position : Position) {tree : Tree} (isMap : tree.isMap) :
    (position.completed tree).field "kind" =
      Value.ofOption (((tree.member? [] "kind").map (Tree.value [])).or position.kind?) := by
  rw [Position.completed, Value.field, Value.members_map, Members.field?_append,
    ← map_member? isMap]
  cases found : tree.member? [] "kind" with
  | some kind => rfl
  | none =>
    rw [Option.map_none, Option.none_or, Option.none_or, Position.additions]
    cases position with
    | document => rfl
    | item kind apiVersion =>
      rw [Position.missing, Position.kind?]
      split
      · rfl
      · rw [List.filter_cons_of_pos (by simp [found]), List.map_cons, Members.field?_cons_self]

/-- Positions that give the same kind give members of the same names. -/
theorem names_missing {position other : Position} (h : other.kind? = position.kind?)
    (tree : Tree) : (other.missing tree).map Prod.fst = (position.missing tree).map Prod.fst := by
  have names (position : Position) : (position.missing tree).map Prod.fst =
      if position.kind?.isSome then
        ["kind", "apiVersion"].filter fun name => (tree.member? [] name).isNone
      else [] := by
    cases position with
    | document => rfl
    | item kind apiVersion =>
      rw [Position.missing, Position.kind?]
      split
      · rfl
      · simp only [List.filter_cons, List.filter_nil, Option.isSome_some]
        split <;> split <;> rfl
  rw [names, names, h]

theorem nodup_missing (position : Position) (tree : Tree) :
    ((position.missing tree).map Prod.fst).Nodup := by
  cases position with
  | document => exact List.nodup_nil
  | item kind apiVersion =>
    rw [Position.missing]
    split
    · exact List.nodup_nil
    · have both : ([("kind", Value.text (itemKind kind)), ("apiVersion", apiVersion)].map
          Prod.fst).Nodup := by simp
      exact both.sublist (List.filter_sublist.map Prod.fst)

/-! ### Writing what is missing -/

theorem writeDefault_unmarked (writes : Writes) (members : List (Value × Tree)) (name : String)
    (value : Value) : (Tree.map none members).writeDefault writes name value =
      (.map none (members ++
        if (find? members name).isNone then [(.text name, .leaf value)] else []), writes) := by
  rw [writeDefault, member?]
  cases found : find? members name with
  | none => simp [write, put_of_absent found]
  | some => simp

theorem writeDefault_marked (writes : Writes) (mark : Nat) (members : List (Value × Tree))
    (name : String) (value : Value) :
    (Tree.map (some mark) members).writeDefault writes name value =
      (.map (some mark) members, writes ++
        if (writes.given mark).any (·.1 == name) || (find? members name).isSome then []
        else [⟨mark, name, value⟩]) := by
  have known : ((Tree.map (some mark) members).member? writes name).isSome =
      ((writes.given mark).any (·.1 == name) || (find? members name).isSome) := by
    rw [← Writes.isSome_last?, member?]
    cases writes.last? mark name <;> rfl
  rw [writeDefault, known]
  split
  · rw [List.append_nil]
  · rfl

/-- A member that has been given its default is there: as it was, or else with the default. -/
theorem member?_writeDefault_self {tree : Tree} (isMap : tree.isMap) (writes : Writes)
    (name : String) (value : Value) :
    (tree.writeDefault writes name value).1.member? (tree.writeDefault writes name value).2 name =
      (tree.member? writes name).or (some (.leaf value)) := by
  rw [writeDefault]
  cases found : tree.member? writes name with
  | some part => rw [Option.isSome_some, if_pos rfl, found, Option.some_or]
  | none =>
    rw [Option.isSome_none, if_neg Bool.false_ne_true, Option.none_or]
    cases tree with
    | map mark members =>
      cases mark with
      | none => rw [Tree.write, member?, find?_put_self]
      | some mark => rw [Tree.write, member?, Writes.last?_concat, if_pos (by simp)]
    | _ => cases isMap

/-- Other members are as they were. -/
theorem member?_writeDefault_of_ne {name other : String} (apart : name ≠ other) (writes : Writes)
    (value : Value) (tree : Tree) :
    (tree.writeDefault writes name value).1.member? (tree.writeDefault writes name value).2 other =
      tree.member? writes other := by
  rw [writeDefault]
  split
  · rfl
  · cases tree with
    | map mark members =>
      cases mark with
      | none => rw [Tree.write, member?, member?, find?_put_of_ne apart]
      | some mark =>
        exact member?_append (fun write hmem _ => List.mem_singleton.mp hmem ▸ apart) writes
    | _ => rfl

/-- The kind of a mapping after the defaults of its position have been written. -/
theorem member?_kind_writeDefaults (position : Position) {tree : Tree} (isMap : tree.isMap)
    (writes : Writes) :
    (position.writeDefaults writes tree).1.member? (position.writeDefaults writes tree).2 "kind" =
      (tree.member? writes "kind").or (position.kind?.map .leaf) := by
  cases position with
  | document => exact Option.or_none.symm
  | item kind apiVersion =>
    rw [Position.writeDefaults, Position.kind?]
    split
    · exact Option.or_none.symm
    · dsimp only
      rw [member?_writeDefault_of_ne (by decide), member?_writeDefault_self isMap, Option.map_some]

/-- An unmarked mapping is given what it misses as members. -/
theorem writeDefaults_unmarked (position : Position) (writes : Writes)
    (members : List (Value × Tree)) :
    position.writeDefaults writes (.map none members) =
      (.map none (members ++ (position.missing (.map none members)).map fun member =>
        (.text member.1, .leaf member.2)), writes) := by
  cases position with
  | document => simp [Position.writeDefaults, Position.missing]
  | item kind apiVersion =>
    rw [Position.writeDefaults, Position.missing]
    split
    · simp
    · have other : find? (members ++ if (find? members "kind").isNone then
          [(.text "kind", .leaf (.text (itemKind kind)))] else []) "apiVersion" =
          find? members "apiVersion" := by
        rw [find?_append]
        split <;> simp [find?]
      rw [writeDefault_unmarked]
      dsimp only
      rw [writeDefault_unmarked, other]
      cases hkind : find? members "kind" <;> cases hversion : find? members "apiVersion" <;>
        simp [member?, hkind, hversion]

/-- What a marked mapping misses is written for its mark, unless this has been done. -/
theorem writeDefaults_marked (position : Position) {writes : Writes} {mark : Nat}
    {members : List (Value × Tree)} (h : writes.given mark = [] ∨
      writes.given mark = position.missing (.map (some mark) members)) :
    ∃ later, position.writeDefaults writes (.map (some mark) members) =
        (.map (some mark) members, writes ++ later) ∧
      (writes ++ later).given mark = position.missing (.map (some mark) members) ∧
      ∀ write ∈ later, write.mark = mark := by
  cases position with
  | document =>
    refine ⟨[], by rw [List.append_nil]; rfl, ?_, nofun⟩
    rw [List.append_nil]
    exact h.elim id id
  | item kind apiVersion =>
    rw [Position.writeDefaults]
    rw [Position.missing] at h ⊢
    split
    · rename_i plain
      rw [if_pos plain] at h
      refine ⟨[], by rw [List.append_nil], ?_, nofun⟩
      rw [List.append_nil]
      exact h.elim id id
    · rename_i typed
      rw [if_neg typed] at h
      rw [writeDefault_marked]
      dsimp only
      rw [writeDefault_marked, List.append_assoc]
      refine ⟨_, rfl, ?_, fun write hmem => ?_⟩
      · rw [← List.append_assoc, Writes.given_append, Writes.given_append]
        rcases h with h | h <;> cases hkind : find? members "kind" <;>
          cases hversion : find? members "apiVersion" <;>
          simp [h, hkind, hversion, member?]
      · have here {taken : Bool} {name : String} {value : Value}
            (h : write ∈ if taken then [] else [⟨mark, name, value⟩]) : write.mark = mark := by
          cases taken with
          | true => cases h
          | false => rw [List.mem_singleton.mp h]
        exact (List.mem_append.mp hmem).elim here here

/-- A marked mapping stays as it is; what it is given is written. -/
theorem writeDefaults_marked_fst (position : Position) (writes : Writes) (mark : Nat)
    (members : List (Value × Tree)) :
    (position.writeDefaults writes (.map (some mark) members)).1 = .map (some mark) members := by
  cases position with
  | document => rfl
  | item kind apiVersion =>
    rw [Position.writeDefaults]
    split
    · rfl
    · rw [writeDefault_marked]
      dsimp only
      rw [writeDefault_marked]

/-- What is written to a mapping was missing in it. -/
theorem mem_missing_of_writeDefaults {position : Position} {writes : Writes} {mark : Option Nat}
    {members : List (Value × Tree)} {write : Write}
    (h : write ∈ (position.writeDefaults writes (.map mark members)).2) : write ∈ writes ∨
      mark = some write.mark ∧
        (write.name, write.value) ∈ position.missing (.map mark members) := by
  cases mark with
  | none =>
    rw [writeDefaults_unmarked] at h
    exact .inl h
  | some mark =>
    cases position with
    | document => exact .inl h
    | item kind apiVersion =>
      rw [Position.writeDefaults] at h
      rw [Position.missing]
      split at h
      · exact .inl h
      · rename_i typed
        rw [writeDefault_marked] at h
        dsimp only at h
        rw [writeDefault_marked, List.append_assoc] at h
        rw [if_neg typed]
        refine (List.mem_append.mp h).imp_right fun h => ?_
        have absent {taken : Bool} {name : String} {value : Value}
            (h : write ∈ if taken || (find? members name).isSome then []
              else [⟨mark, name, value⟩]) :
            write = ⟨mark, name, value⟩ ∧ find? members name = none := by
          split at h
          · cases h
          · rename_i absent
            rw [Bool.or_eq_true, not_or] at absent
            exact ⟨List.mem_singleton.mp h, by simpa using absent.2⟩
        rcases List.mem_append.mp h with h | h
        · obtain ⟨rfl, none⟩ := absent h
          exact ⟨rfl, List.mem_filter.mpr ⟨List.mem_cons_self .., by simp [none]⟩⟩
        · obtain ⟨rfl, none⟩ := absent h
          exact ⟨rfl, List.mem_filter.mpr ⟨by simp, by simp [none]⟩⟩

/-- What is known of a mapping after the defaults of its position have been written. -/
structure IsDefaulted (position : Position) (mark : Option Nat) (members : List (Value × Tree))
    (writes : Writes) (object : Tree) (writes' : Writes) : Prop where
  isMap : object.isMap
  /-- Nothing is written to other mappings. -/
  later : ∃ later, writes' = writes ++ later ∧ ∀ write ∈ later, mark = some write.mark
  given : ∀ number, mark = some number → writes'.given number = position.missing (.map mark members)
  value : ∀ final : Writes,
    (∀ number, mark = some number → final.given number = position.missing (.map mark members)) →
      object.value final =
        .map (memberValues final members ++ position.additions (.map mark members))

theorem isDefaulted_writeDefaults (position : Position) {writes : Writes} {mark : Option Nat}
    {members : List (Value × Tree)} (h : ∀ number, mark = some number →
      writes.given number = [] ∨ writes.given number = position.missing (.map mark members)) :
    IsDefaulted position mark members writes (position.writeDefaults writes (.map mark members)).1
      (position.writeDefaults writes (.map mark members)).2 := by
  cases mark with
  | none =>
    rw [writeDefaults_unmarked]
    refine ⟨rfl, ⟨[], (List.append_nil writes).symm, nofun⟩, nofun, fun final _ => ?_⟩
    simp [value, memberValues_eq_map, Position.additions]
  | some mark =>
    obtain ⟨later, heq, given, own⟩ := writeDefaults_marked position (h mark rfl)
    rw [heq]
    refine ⟨rfl, ⟨later, rfl, fun write hmem => congrArg some (own write hmem).symm⟩,
      fun number same => Option.some.inj same ▸ given, fun final same => ?_⟩
    rw [value, Writes.apply_eq_foldl, same mark rfl, Position.additions,
      Members.foldl_put_of_absent (nodup_missing _ _)]
    intro member hmember
    have absent := absent_of_mem_missing hmember
    rw [member?_nil] at absent
    rw [field?_memberValues, absent, Option.map_none]

theorem IsDefaulted.get {position : Position} {mark : Option Nat} {members : List (Value × Tree)}
    {writes writes' : Writes} {object : Tree}
    (h : IsDefaulted position mark members writes object writes') {name : String}
    (same : ∀ part, find? members name = some part → part.value writes' = part.value []) :
    object.get writes' name = (position.completed (.map mark members)).field name := by
  rw [get_eq_field h.isMap, h.value writes' h.given, completed_map, Value.field, Value.field,
    Value.members_map, Value.members_map, Members.field?_append, Members.field?_append,
    field?_memberValues, field?_memberValues]
  cases found : find? members name with
  | none => rfl
  | some part => rw [Option.map_some, Option.map_some, same part found]

end Reconciler.Manifest

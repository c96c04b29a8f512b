import Reconciler.Proofs.Value.Json
import Mathlib.Data.List.Nodup
import Mathlib.Data.List.Perm.Basic

/-!
# Objects by their names

An object with text keys is known by what it has at each name: it is empty if it has nothing
at any name, and two objects are equal if they have equal values at each name. Proofs about
patches read objects in this way and never member by member.
-/

namespace Reconciler

/-- Two optional values are related if both are there or neither, and they are if both are. -/
theorem rel_iff {R : α → β → Prop} {x : Option α} {y : Option β} :
    Option.Rel R x y ↔ x.isSome = y.isSome ∧ ∀ a b, x = some a → y = some b → R a b := by
  cases x <;> cases y <;> simp

namespace Members

theorem field?_eq_some_iff {members : Members} (named : members.isNamed) {name : String}
    {value : Value} : members.field? name = some value ↔ (.text name, value) ∈ members := by
  refine ⟨mem_of_field?, fun hmem => ?_⟩
  induction members with
  | nil => cases hmem
  | cons member rest ih =>
    obtain ⟨key, other⟩ := member
    obtain ⟨own, rfl, fresh, named⟩ := isNamed_cons.mp named
    rw [field?_cons_text]
    rcases List.mem_cons.mp hmem with heq | hrest
    · obtain ⟨hname, rfl⟩ := Prod.mk.inj heq
      rw [if_pos (Value.text.inj hname).symm]
    · have later := ih named hrest
      rw [if_neg, later]
      rintro rfl
      rw [fresh] at later
      cases later

/-- A member of a mapping with text keys is what the mapping has at a name. -/
theorem exists_name_of_mem {members : Members} (named : members.isNamed)
    {member : Value × Value} (h : member ∈ members) :
    ∃ name value, member = (.text name, value) ∧ members.field? name = some value := by
  obtain ⟨name, hname⟩ := key_of_mem named h
  obtain ⟨key, value⟩ := member
  obtain rfl : key = .text name := hname
  exact ⟨name, value, rfl, (field?_eq_some_iff named).mpr h⟩

/-- What holds of some member whose key is a name holds of what the object has at the name. -/
theorem exists_mem_iff {members : Members} (named : members.isNamed) {name : String}
    {P : Value × Value → Prop} {Q : Value → Prop}
    (h : ∀ other value, P (.text other, value) ↔ other = name ∧ Q value) :
    (∃ member ∈ members, P member) ↔ ∃ value, members.field? name = some value ∧ Q value := by
  constructor
  · rintro ⟨member, hmem, hP⟩
    obtain ⟨other, value, rfl, hfield⟩ := exists_name_of_mem named hmem
    obtain ⟨rfl, hQ⟩ := (h other value).mp hP
    exact ⟨value, hfield, hQ⟩
  · rintro ⟨value, hfield, hQ⟩
    exact ⟨_, mem_of_field? hfield, (h name value).mpr ⟨rfl, hQ⟩⟩

/-- The names of a mapping with text keys, each once. -/
theorem nodup_keys {members : Members} (named : members.isNamed) :
    members.keys.Nodup := by
  induction members with
  | nil => exact .nil
  | cons member rest ih =>
    obtain ⟨key, value⟩ := member
    obtain ⟨own, rfl, fresh, named⟩ := isNamed_cons.mp named
    refine List.nodup_cons.mpr ⟨fun hmem => ?_, ih named⟩
    obtain ⟨member, hmember, hkey⟩ := List.mem_map.mp hmem
    obtain ⟨key, other⟩ := member
    obtain rfl : key = .text own := hkey
    rw [(field?_eq_some_iff named).mpr hmember] at fresh
    cases fresh

theorem mem_keys_iff {members : Members} (named : members.isNamed) {key : Value} :
    key ∈ members.keys ↔ ∃ name, key = .text name ∧ (members.field? name).isSome := by
  constructor
  · intro hmem
    obtain ⟨member, hmember, rfl⟩ := List.mem_map.mp hmem
    obtain ⟨name, value, rfl, hfield⟩ := exists_name_of_mem named hmember
    exact ⟨name, rfl, Option.isSome_of_eq_some hfield⟩
  · rintro ⟨name, rfl, present⟩
    obtain ⟨value, hvalue⟩ := Option.isSome_iff_exists.mp present
    exact List.mem_map.mpr ⟨_, mem_of_field? hvalue, rfl⟩

theorem mem_of_same {xs ys : Members} (hx : xs.isNamed)
    (same : ∀ name, xs.field? name = ys.field? name) {member : Value × Value} (h : member ∈ xs) :
    member ∈ ys := by
  obtain ⟨name, value, rfl, hfield⟩ := exists_name_of_mem hx h
  exact mem_of_field? ((same name).symm.trans hfield)

/-- Two objects have the same members in some order if they have the same at each name. -/
theorem perm_iff {xs ys : Members} (hx : xs.isNamed) (hy : ys.isNamed) :
    xs.Perm ys ↔ ∀ name, xs.field? name = ys.field? name := by
  rw [List.perm_ext_iff_of_nodup (nodup_keys hx).of_map (nodup_keys hy).of_map]
  constructor
  · intro same name
    refine Option.ext fun value => ?_
    rw [field?_eq_some_iff hx, field?_eq_some_iff hy]
    exact same _
  · intro same member
    exact ⟨mem_of_same hx same, mem_of_same hy fun name => (same name).symm⟩

theorem isNamed_iff {members : Members} : members.isNamed ↔
    members.keys.Nodup ∧ ∀ member ∈ members, ∃ name, member.1 = .text name := by
  constructor
  · exact fun named => ⟨nodup_keys named, fun _ => key_of_mem named⟩
  · rintro ⟨distinct, text⟩
    induction members with
    | nil => rfl
    | cons member rest ih =>
      obtain ⟨key, value⟩ := member
      obtain ⟨fresh, others⟩ := List.nodup_cons.mp distinct
      obtain ⟨⟨name, hname⟩, later⟩ := List.forall_mem_cons.mp text
      obtain rfl : key = .text name := hname
      refine isNamed_cons.mpr ⟨name, rfl, ?_, ih others later⟩
      refine Option.eq_none_iff_forall_ne_some.mpr fun other hfield => fresh ?_
      exact List.mem_map.mpr ⟨_, mem_of_field? hfield, rfl⟩

theorem isNamed_of_perm {xs ys : Members} (perm : xs.Perm ys) (named : ys.isNamed) :
    xs.isNamed := by
  rw [isNamed_iff] at named ⊢
  exact ⟨(perm.map Prod.fst).nodup_iff.mpr named.1, fun member hmem =>
    named.2 member (perm.mem_iff.mp hmem)⟩

/-! ### Members with other values -/

theorem keys_map (f : Value → Value) (members : Members) :
    keys (members.map fun member => (member.1, f member.2)) = members.keys := by
  rw [keys, List.map_map]
  rfl

theorem isNamed_map {members : Members} (named : members.isNamed) (f : Value → Value) :
    isNamed (members.map fun member => (member.1, f member.2)) := by
  refine isNamed_iff.mpr ⟨?_, fun member hmem => ?_⟩
  · rw [keys_map]
    exact nodup_keys named
  · obtain ⟨own, hown, rfl⟩ := List.mem_map.mp hmem
    obtain ⟨name, hname⟩ := key_of_mem named hown
    exact ⟨name, hname⟩

theorem field?_map (f : Value → Value) (members : Members) (name : String) :
    field? (members.map fun member => (member.1, f member.2)) name =
      (members.field? name).map f := by
  induction members with
  | nil => rfl
  | cons member rest ih =>
    obtain ⟨key, value⟩ := member
    by_cases h : key = .text name
    · subst h
      rw [List.map_cons, field?_cons_self, field?_cons_self, Option.map_some]
    · rw [List.map_cons, field?_cons_of_ne h, field?_cons_of_ne h, ih]

theorem eq_nil_iff {members : Members} (named : members.isNamed) :
    members = [] ↔ ∀ name, members.field? name = none := by
  constructor
  · rintro rfl name
    rfl
  · intro absent
    cases members with
    | nil => rfl
    | cons member rest =>
      obtain ⟨key, value⟩ := member
      obtain ⟨own, rfl, -, -⟩ := isNamed_cons.mp named
      have here := absent own
      rw [field?_cons_self] at here
      cases here

end Members

namespace Value

theorem exists_sameMember_iff {shared : Bool} {ys : Members} (hy : ys.isNamed) (name : String)
    (x : Value) : (∃ y ∈ ys, sameMember shared (.text name, x) y) ↔
      ∃ y, ys.field? name = some y ∧ equalWithin shared x y = true :=
  Members.exists_mem_iff hy fun other y => by simp [sameMember, eq_comm (a := name)]

theorem exists_sameMember_left_iff {shared : Bool} {xs : Members} (hx : xs.isNamed)
    (name : String) (y : Value) : (∃ x ∈ xs, sameMember shared x (.text name, y)) ↔
      ∃ x, xs.field? name = some x ∧ equalWithin shared x y = true :=
  Members.exists_mem_iff hx fun other x => by simp [sameMember]

/-- Objects with text keys are equal if they have equal values at each name. -/
theorem equalWithin_map_iff {shared : Bool} {xs ys : Members} (hx : xs.isNamed)
    (hy : ys.isNamed) : equalWithin shared (.map xs) (.map ys) = true ↔
      ∀ name, Option.Rel (fun x y => equalWithin shared x y = true) (xs.field? name)
        (ys.field? name) := by
  rw [equalWithin_map]
  constructor
  · rintro ⟨-, there, back⟩ name
    cases hxs : xs.field? name with
    | none =>
      cases hys : ys.field? name with
      | none => exact .none
      | some y =>
        obtain ⟨x, hfield, -⟩ := (exists_sameMember_left_iff hx name y).mp
          (back _ (Members.mem_of_field? hys))
        rw [hxs] at hfield
        cases hfield
    | some x =>
      obtain ⟨y, hfield, hvalue⟩ := (exists_sameMember_iff hy name x).mp
        (there _ (Members.mem_of_field? hxs))
      rw [hfield]
      exact .some hvalue
  · intro rel
    have present : ∀ name, (xs.field? name).isSome = (ys.field? name).isSome :=
      fun name => (rel_iff.mp (rel name)).1
    refine ⟨?_, fun x hmem => ?_, fun y hmem => ?_⟩
    · have perm : xs.keys.Perm ys.keys := by
        rw [List.perm_ext_iff_of_nodup (Members.nodup_keys hx) (Members.nodup_keys hy)]
        intro key
        simp only [Members.mem_keys_iff hx, Members.mem_keys_iff hy, present]
      simpa [Members.keys] using perm.length_eq
    · obtain ⟨name, x, rfl, here⟩ := Members.exists_name_of_mem hx hmem
      obtain ⟨y, hy'⟩ := Option.isSome_iff_exists.mp ((present name).symm.trans (by rw [here]; rfl))
      rw [exists_sameMember_iff hy]
      exact ⟨y, hy', (rel_iff.mp (rel name)).2 x y here hy'⟩
    · obtain ⟨name, y, rfl, here⟩ := Members.exists_name_of_mem hy hmem
      obtain ⟨x, hx'⟩ := Option.isSome_iff_exists.mp ((present name).trans (by rw [here]; rfl))
      rw [exists_sameMember_left_iff hx]
      exact ⟨x, hx', (rel_iff.mp (rel name)).2 x y hx' here⟩

end Value

end Reconciler

import Reconciler.Problem
import Reconciler.Proofs.Value.Tree
import Reconciler.Proofs.Yaml.Parsing
import Reconciler.Yaml.Read
import Mathlib.Data.List.Forall2

/-!
# Values of nodes at several places

The value of a node does not depend on how deep in a document the node stands; only what is
reported of a flaw does. So a mapping that stands at several places has one tree. Main statement:
in the documents of a text the places with one mark hold one tree, also across documents, and no
leaf is a mapping or a list.
-/

namespace Reconciler.Yaml

/-! ### Depth -/

namespace Built

/-- Two parts are the same if they are there, wherever their flaws may lie. -/
def Agree (x y : Built α) : Prop := x.toOption = y.toOption

theorem Agree.eq {x y : Built α} (h : Agree x y) {a b : α} (hx : x = .ok a) (hy : y = .ok b) :
    a = b := by
  subst hx hy
  exact Option.some.inj h

theorem agree_flawed (d e : Nat) : Agree (flawed d : Built α) (flawed e) := rfl

theorem agree_reading (d e : Nat) (result : Except Flaw α) :
    Agree (reading d result) (reading e result) := by
  cases result <;> rfl

theorem Agree.map {x y : Built α} (h : Agree x y) (f : α → β) : Agree (x.map f) (y.map f) := by
  cases x <;> cases y <;> simp_all [Agree, Except.map, Except.toOption]

theorem Agree.both {x y : Built α} {x' y' : Built β} (h : Agree x y) (h' : Agree x' y') :
    Agree (Built.both x x') (Built.both y y') := by
  cases x <;> cases y <;> cases x' <;> cases y' <;>
    simp_all [Agree, Built.both, Except.toOption]

theorem agree_all {xs ys : List (Built α)} (h : List.Forall₂ Agree xs ys) :
    Agree (all xs) (all ys) := by
  induction h with
  | nil => rfl
  | cons here _ ih => exact (here.both ih).map _

end Built

open Built (Agree agree_flawed agree_reading agree_all)

theorem agree_keyOf {x y : Built Tree} (h : Agree x y) (d e : Nat) :
    Agree (keyOf d x) (keyOf e y) := by
  have flawed : ∀ (d : Nat) (trouble : Trouble), (keyOf d (.error trouble)).toOption = none := by
    intro d trouble
    rw [keyOf]
    split <;> rfl
  rcases x with trouble | tree <;> rcases y with trouble' | tree'
  · exact (flawed d trouble).trans (flawed e trouble').symm
  · cases h
  · cases h
  · obtain rfl := Option.some.inj h
    cases tree with
    | leaf value =>
      rw [keyOf, keyOf]
      split <;> rfl
    | _ => rfl

theorem agree_memberOf {key key' value value' : Built Tree} (hkey : Agree key key')
    (hvalue : Agree value value') (d e : Nat) :
    Agree (memberOf d key value) (memberOf e key' value') :=
  (agree_keyOf hkey d e).both hvalue

/-- What is made of related parts is related. -/
theorem rel_bind {R : α → β → Prop} {S : γ → δ → Prop} {x : Option α} {y : Option β}
    {f : α → Option γ} {g : β → Option δ} (h : Option.Rel R x y)
    (hnext : ∀ a b, R a b → Option.Rel S (f a) (g b)) : Option.Rel S (x >>= f) (y >>= g) := by
  cases h with
  | none => exact .none
  | some h => exact hnext _ _ h

/-- Two readings of members agree if they do so member by member. -/
structure BuiltMembers.Agree (xs ys : BuiltMembers) : Prop where
  included : List.Forall₂ Built.Agree xs.included ys.included
  own : List.Forall₂ Built.Agree xs.own ys.own

theorem BuiltMembers.Agree.all {xs ys : BuiltMembers} (h : xs.Agree ys) :
    List.Forall₂ Built.Agree xs.all ys.all := List.rel_append h.included h.own

mutual

/-- The tree of a node does not depend on its depth. -/
theorem agree_construct (d e : Nat) (node : Node) :
    Agree (construct d node) (construct e node) := by
  cases node with
  | scalar tag text =>
    unfold construct
    cases tag with
    | sequence | mapping | set | orderedMapping | pairs => exact agree_flawed _ _
    | _ => exact (agree_reading _ _ _).map _
  | sequence tag items =>
    unfold construct
    cases tag with
    | sequence => exact (agree_all (agree_constructAll _ _ items)).map _
    | orderedMapping | pairs => exact (agree_all (agree_constructPairs _ _ items)).map _
    | _ => exact agree_flawed _ _
  | mapping tag mark members =>
    have same := agree_membersOf (d + 1) (e + 1) members
    unfold construct
    cases tag with
    | mapping | set =>
      dsimp only
      generalize membersOf (d + 1) members = x, membersOf (e + 1) members = y at same
      cases same with
      | none => exact agree_flawed _ _
      | some h => exact (agree_all h.all).map _
    | sequence | orderedMapping | pairs => exact agree_flawed _ _
    | _ =>
      dsimp only
      split
      · split
        · exact (agree_reading _ _ _).map _
        · exact agree_flawed _ _
      · exact agree_flawed _ _

theorem agree_constructAll (d e : Nat) (nodes : List Node) :
    List.Forall₂ Agree (constructAll d nodes) (constructAll e nodes) := by
  cases nodes with
  | nil =>
    rw [constructAll, constructAll]
    exact .nil
  | cons node nodes =>
    rw [constructAll, constructAll]
    exact .cons (agree_construct d e node) (agree_constructAll d e nodes)

theorem agree_constructPairs (d e : Nat) (nodes : List Node) :
    List.Forall₂ Agree (constructPairs d nodes) (constructPairs e nodes) := by
  cases nodes with
  | nil =>
    rw [constructPairs, constructPairs]
    exact .nil
  | cons node nodes =>
    have rest := agree_constructPairs d e nodes
    cases node with
    | mapping tag mark members =>
      rcases members with _ | ⟨⟨key, value⟩, _ | ⟨other, members⟩⟩
      · simp only [constructPairs]
        exact .cons (agree_flawed _ _) rest
      · simp only [constructPairs]
        exact .cons (((agree_construct d e key).both (agree_construct d e value)).map _) rest
      · simp only [constructPairs]
        exact .cons (agree_flawed _ _) rest
    | _ =>
      simp only [constructPairs]
      exact .cons (agree_flawed _ _) rest

theorem agree_membersOf (d e : Nat) (members : List (Node × Node)) :
    Option.Rel BuiltMembers.Agree (membersOf d members) (membersOf e members) := by
  cases members with
  | nil =>
    rw [membersOf, membersOf]
    exact .some ⟨.nil, .nil⟩
  | cons member rest =>
    obtain ⟨key, value⟩ := member
    have hkey := agree_construct d e key
    have hvalue := agree_construct d e value
    have rest := agree_membersOf d e rest
    have included := agree_includedFrom d e value
    unfold membersOf
    dsimp only
    split
    · exact rel_bind included fun _ _ hincluded => rel_bind rest fun _ _ hrest =>
        .some ⟨List.rel_append hincluded hrest.included, hrest.own⟩
    · refine rel_bind rest fun _ _ hrest => .some ⟨hrest.included, .cons ?_ hrest.own⟩
      refine agree_memberOf ?_ hvalue d e
      cases textOf key with
      | none => exact agree_flawed _ _
      | some text => rfl
    · exact rel_bind rest fun _ _ hrest =>
        .some ⟨hrest.included, .cons (agree_memberOf hkey hvalue d e) hrest.own⟩

theorem agree_includedFrom (d e : Nat) (node : Node) :
    Option.Rel (List.Forall₂ Agree) (includedFrom d node) (includedFrom e node) := by
  cases node with
  | scalar tag text =>
    rw [includedFrom, includedFrom]
    exact .none
  | sequence tag items =>
    rw [includedFrom, includedFrom]
    exact agree_includedFromAll d e items
  | mapping tag mark members =>
    rw [includedFrom, includedFrom, Option.map_eq_bind, Option.map_eq_bind]
    exact rel_bind (agree_membersOf d e members) fun _ _ h => .some h.all

theorem agree_includedFromAll (d e : Nat) (nodes : List Node) :
    Option.Rel (List.Forall₂ Agree) (includedFromAll d nodes) (includedFromAll e nodes) := by
  cases nodes with
  | nil =>
    rw [includedFromAll, includedFromAll]
    exact .some .nil
  | cons node nodes =>
    have rest := agree_includedFromAll d e nodes
    cases node with
    | mapping tag mark members =>
      rw [includedFromAll, includedFromAll]
      exact rel_bind (agree_membersOf d e members) fun _ _ hmembers =>
        rel_bind rest fun _ _ hrest => .some (List.rel_append hrest hmembers.all)
    | _ =>
      simp only [includedFromAll]
      exact .none

end

/-! ### Where trees stem from -/

/-- The marked mappings of a tree stem from known nodes with their marks, and none of its leaves
is a collection of values. -/
structure Stems (known : Set Node) (tree : Tree) : Prop where
  marked : ∀ part mark, Tree.IsIn part tree → part.mark? = some mark →
    ∃ node ∈ known, node.mark? = some mark ∧ ∃ depth, construct depth node = .ok part
  plain : ∀ value, Tree.IsIn (.leaf value) tree → value.isFlat

variable {known : Set Node}

theorem stems_leaf {value : Value} (h : value.isFlat) : Stems known (.leaf value) where
  marked part mark within marked := by
    cases within
    cases marked
  plain value within := by
    cases within
    exact h

theorem stems_list {items : List Tree} (h : ∀ tree ∈ items, Stems known tree) :
    Stems known (.list items) where
  marked part mark within marked := by
    cases within with
    | self => cases marked
    | item mem within => exact (h _ mem).marked part mark within marked
  plain value within := by
    cases within with
    | item mem within => exact (h _ mem).plain value within

theorem stems_tuple {items : List Tree} (h : ∀ tree ∈ items, Stems known tree) :
    Stems known (.tuple items) where
  marked part mark within marked := by
    cases within with
    | self => cases marked
    | component mem within => exact (h _ mem).marked part mark within marked
  plain value within := by
    cases within with
    | component mem within => exact (h _ mem).plain value within

theorem stems_map {mark : Option Nat} {members : List (Value × Tree)}
    (h : ∀ member ∈ members, Stems known member.2)
    (here : ∀ number, mark = some number → ∃ node ∈ known, node.mark? = some number ∧
      ∃ depth, construct depth node = .ok (.map mark members)) :
    Stems known (.map mark members) where
  marked part number within marked := by
    cases within with
    | self => exact here number marked
    | member mem within => exact (h _ mem).marked part number within marked
  plain value within := by
    cases within with
    | member mem within => exact (h _ mem).plain value within

/-- The members that writing pairs gives have the trees of these pairs. -/
theorem forall_mem_ofPairs {P : Tree → Prop} {pairs : List (Value × Tree)}
    (h : ∀ pair ∈ pairs, P pair.2) : ∀ member ∈ Tree.ofPairs pairs, P member.2 := by
  suffices ∀ members : List (Value × Tree), (∀ member ∈ members, P member.2) →
      ∀ member ∈ pairs.foldl (fun members pair => Tree.put members pair.1 pair.2) members,
        P member.2 from this [] nofun
  induction pairs with
  | nil => exact fun _ hmembers => hmembers
  | cons pair rest ih =>
    obtain ⟨here, h⟩ := List.forall_mem_cons.mp h
    refine fun members hmembers => ih h _ fun member hmember => ?_
    rcases Tree.mem_put hmember with heq | hold
    · exact heq ▸ here
    · exact hmembers member hold

theorem Built.mem_of_all {parts : List (Built α)} {as : List α} (h : Built.all parts = .ok as) :
    ∀ a ∈ as, .ok a ∈ parts := by
  induction parts generalizing as with
  | nil =>
    cases h
    exact nofun
  | cons part parts ih =>
    rw [Built.all] at h
    cases part with
    | error trouble =>
      cases hall : Built.all parts <;> rw [hall] at h <;> cases h
    | ok first =>
      cases hall : Built.all parts with
      | error trouble =>
        rw [hall] at h
        cases h
      | ok others =>
        rw [hall] at h
        cases h
        intro a ha
        rcases List.mem_cons.mp ha with rfl | ha
        · exact List.mem_cons_self ..
        · exact List.mem_cons_of_mem _ (ih hall a ha)

theorem Built.both_eq_ok {x : Built α} {y : Built β} {a : α} {b : β}
    (h : Built.both x y = .ok (a, b)) : x = .ok a ∧ y = .ok b := by
  cases x <;> cases y <;> cases h
  exact ⟨rfl, rfl⟩

theorem value_of_memberOf {d : Nat} {key value : Built Tree} {member : Value × Tree}
    (h : memberOf d key value = .ok member) : value = .ok member.2 := (Built.both_eq_ok h).2

theorem BuiltMembers.mem_all_own {members : BuiltMembers} {first member : BuiltMember}
    (h : member ∈ ({ members with own := first :: members.own } : BuiltMembers).all) :
    member = first ∨ member ∈ members.all := by
  simp only [BuiltMembers.all, List.mem_append, List.mem_cons] at h ⊢
  tauto

theorem BuiltMembers.mem_all_included {members : BuiltMembers} {included : List BuiltMember}
    {member : BuiltMember}
    (h : member ∈
      ({ members with included := included ++ members.included } : BuiltMembers).all) :
    member ∈ included ∨ member ∈ members.all := by
  simp only [BuiltMembers.all, List.mem_append] at h ⊢
  tauto

/-- What is made of a size by a function that gives no collections is none. -/
theorem isFlat_of_size {size : Except Flaw α} {f : α → Value} {value : Value}
    (h : (size >>= fun size => pure (f size) : Scalar.Reading) = .ok value)
    (plain : ∀ size, (f size).isFlat) : value.isFlat := by
  obtain ⟨a, -, h⟩ := bind_eq_ok.mp h
  cases h
  exact plain a

/-- Text stands for no collection, whatever its tag is. -/
theorem isFlat_of_value {tag : Tag} {text : String} {value : Value}
    (h : Scalar.value tag text = .ok value) : value.isFlat := by
  cases tag with
  | null | text =>
    cases h
    rfl
  | bool =>
    rw [Scalar.value, Scalar.bool] at h
    split at h <;> cases h <;> rfl
  | int =>
    obtain ⟨⟨negative, digits⟩, -, h⟩ := bind_eq_ok.mp h
    have plain : ∀ size : Int, (Value.int (if negative then -size else size)).isFlat :=
      fun _ => rfl
    dsimp only at h
    split at h
    · exact isFlat_of_size h plain
    · exact isFlat_of_size h plain
    · exact isFlat_of_size h plain
    · exact isFlat_of_size h plain
    · exact isFlat_of_size h plain
    · split at h
      · obtain ⟨places, -, h⟩ := bind_eq_ok.mp h
        exact isFlat_of_size h plain
      · exact isFlat_of_size h plain
  | float =>
    obtain ⟨⟨negative, digits⟩, -, h⟩ := bind_eq_ok.mp h
    have plain : ∀ size : Double,
        (Value.float (if negative then size.neg else size)).isFlat := fun _ => rfl
    dsimp only at h
    split at h
    · exact isFlat_of_size h plain
    · split at h
      · exact isFlat_of_size h plain
      · split at h
        · obtain ⟨places, -, h⟩ := bind_eq_ok.mp h
          exact isFlat_of_size h plain
        · exact isFlat_of_size h plain
  | binary =>
    rw [Scalar.value, Scalar.binary] at h
    split at h
    · split at h <;> cases h
      rfl
    · cases h
  | timestamp =>
    rw [Scalar.value, Scalar.timestamp] at h
    split at h
    · cases h
    · split at h
      · cases h
      · cases h
        rfl
      · dsimp only at h
        split at h <;> cases h
        rfl
  | _ => cases h

theorem map_eq_ok {ε : Type} {x : Except ε α} {f : α → β} {b : β} :
    x.map f = .ok b ↔ ∃ a, x = .ok a ∧ f a = b := by
  cases x with
  | error e => exact ⟨nofun, nofun⟩
  | ok a =>
    constructor
    · exact fun h => ⟨a, rfl, Except.ok.inj h⟩
    · rintro ⟨_, h, rfl⟩
      cases h
      rfl

theorem stems_scalar {d : Nat} {tag : Tag} {text : String} {tree : Tree}
    (h : (Built.reading d (Scalar.value tag text)).map Tree.leaf = .ok tree) :
    Stems known tree := by
  cases hvalue : Scalar.value tag text with
  | error flaw =>
    rw [hvalue] at h
    cases h
  | ok value =>
    rw [hvalue] at h
    cases h
    exact stems_leaf (isFlat_of_value hvalue)

theorem knows_items {tag : Tag} {items : List Node} (h : Knows known [.sequence tag items]) :
    Knows known items := fun _ hnode part mark within marked =>
  h _ (List.mem_singleton_self _) part mark (.item hnode within) marked

theorem knows_parts {tag : Tag} {mark : Option Nat} {members : List (Node × Node)}
    (h : Knows known [.mapping tag mark members]) : Knows known (partsOf members) := by
  intro node hnode part number within marked
  obtain ⟨⟨key, value⟩, hmember, hnode⟩ := List.mem_flatMap.mp hnode
  rcases List.mem_cons.mp hnode with rfl | hnode
  · exact h _ (List.mem_singleton_self _) part number (.key hmember within) marked
  · obtain rfl := List.mem_singleton.mp hnode
    exact h _ (List.mem_singleton_self _) part number (.value hmember within) marked

mutual

/-- The tree of a node stems from the mappings of this node. -/
theorem stems_construct {d : Nat} {node : Node} {tree : Tree} (h : Knows known [node])
    (ok : construct d node = .ok tree) : Stems known tree := by
  cases node with
  | scalar tag text =>
    unfold construct at ok
    cases tag with
    | sequence | mapping | set | orderedMapping | pairs => cases ok
    | _ => exact stems_scalar ok
  | sequence tag items =>
    unfold construct at ok
    cases tag with
    | sequence =>
      obtain ⟨trees, htrees, rfl⟩ := map_eq_ok.mp ok
      exact stems_list fun tree htree =>
        stems_constructAll (knows_items h) (Built.mem_of_all htrees tree htree)
    | orderedMapping | pairs =>
      obtain ⟨trees, htrees, rfl⟩ := map_eq_ok.mp ok
      exact stems_list fun tree htree =>
        stems_constructPairs (knows_items h) (Built.mem_of_all htrees tree htree)
    | _ => cases ok
  | mapping tag mark members =>
    have itself := ok
    unfold construct at ok
    cases tag with
    | mapping =>
      dsimp only at ok
      split at ok
      · rename_i built hbuilt
        obtain ⟨pairs, hpairs, rfl⟩ := map_eq_ok.mp ok
        refine stems_map (forall_mem_ofPairs fun pair hpair =>
          stems_membersOf (knows_parts h) hbuilt (Built.mem_of_all hpairs pair hpair)) ?_
        rintro number rfl
        exact ⟨_, h _ (List.mem_singleton_self _) _ number .self rfl, rfl, d, itself⟩
      · cases ok
    | set =>
      dsimp only at ok
      split at ok
      · obtain ⟨pairs, -, rfl⟩ := map_eq_ok.mp ok
        exact stems_leaf rfl
      · cases ok
    | sequence | orderedMapping | pairs => cases ok
    | _ =>
      dsimp only at ok
      split at ok
      · split at ok
        · exact stems_scalar ok
        · cases ok
      · cases ok

theorem stems_constructAll {d : Nat} {nodes : List Node} {tree : Tree} (h : Knows known nodes)
    (hmem : .ok tree ∈ constructAll d nodes) : Stems known tree := by
  cases nodes with
  | nil =>
    rw [constructAll] at hmem
    cases hmem
  | cons node nodes =>
    obtain ⟨here, others⟩ := knows_cons.mp h
    rw [constructAll] at hmem
    rcases List.mem_cons.mp hmem with heq | hmem
    · exact stems_construct here heq.symm
    · exact stems_constructAll others hmem

theorem stems_constructPairs {d : Nat} {nodes : List Node} {tree : Tree} (h : Knows known nodes)
    (hmem : .ok tree ∈ constructPairs d nodes) : Stems known tree := by
  cases nodes with
  | nil =>
    rw [constructPairs] at hmem
    cases hmem
  | cons node nodes =>
    obtain ⟨here, others⟩ := knows_cons.mp h
    cases node with
    | mapping tag mark members =>
      rcases members with _ | ⟨⟨key, value⟩, _ | ⟨other, members⟩⟩
      · simp only [constructPairs] at hmem
        rcases List.mem_cons.mp hmem with heq | hmem
        · cases heq
        · exact stems_constructPairs others hmem
      · simp only [constructPairs] at hmem
        rcases List.mem_cons.mp hmem with heq | hmem
        · obtain ⟨⟨k, v⟩, hboth, rfl⟩ := map_eq_ok.mp heq.symm
          obtain ⟨hkey, hvalue⟩ := Built.both_eq_ok hboth
          obtain ⟨known_key, known_value⟩ := knows_cons.mp (knows_parts here)
          refine stems_tuple fun tree htree => ?_
          rcases List.mem_cons.mp htree with rfl | htree
          · exact stems_construct known_key hkey
          · obtain rfl := List.mem_singleton.mp htree
            exact stems_construct known_value hvalue
        · exact stems_constructPairs others hmem
      · simp only [constructPairs] at hmem
        rcases List.mem_cons.mp hmem with heq | hmem
        · cases heq
        · exact stems_constructPairs others hmem
    | _ =>
      simp only [constructPairs] at hmem
      rcases List.mem_cons.mp hmem with heq | hmem
      · cases heq
      · exact stems_constructPairs others hmem

theorem stems_membersOf {d : Nat} {members : List (Node × Node)} {built : BuiltMembers}
    {member : Value × Tree} (h : Knows known (partsOf members))
    (hbuilt : membersOf d members = some built) (hmem : .ok member ∈ built.all) :
    Stems known member.2 := by
  cases members with
  | nil =>
    rw [membersOf] at hbuilt
    cases hbuilt
    cases hmem
  | cons first rest =>
    obtain ⟨key, value⟩ := first
    obtain ⟨hkey, h⟩ := knows_cons.mp h
    obtain ⟨hvalue, hrest⟩ := knows_cons.mp h
    unfold membersOf at hbuilt
    dsimp only at hbuilt
    split at hbuilt
    · obtain ⟨included, hincluded, hbuilt⟩ := Option.bind_eq_some_iff.mp hbuilt
      obtain ⟨others, hothers, hbuilt⟩ := Option.bind_eq_some_iff.mp hbuilt
      cases hbuilt
      rcases BuiltMembers.mem_all_included hmem with hmem | hmem
      · exact stems_includedFrom hvalue hincluded hmem
      · exact stems_membersOf hrest hothers hmem
    · obtain ⟨others, hothers, hbuilt⟩ := Option.bind_eq_some_iff.mp hbuilt
      cases hbuilt
      rcases BuiltMembers.mem_all_own hmem with heq | hmem
      · exact stems_construct hvalue (value_of_memberOf heq.symm)
      · exact stems_membersOf hrest hothers hmem
    · obtain ⟨others, hothers, hbuilt⟩ := Option.bind_eq_some_iff.mp hbuilt
      cases hbuilt
      rcases BuiltMembers.mem_all_own hmem with heq | hmem
      · exact stems_construct hvalue (value_of_memberOf heq.symm)
      · exact stems_membersOf hrest hothers hmem

theorem stems_includedFrom {d : Nat} {node : Node} {built : List BuiltMember}
    {member : Value × Tree} (h : Knows known [node]) (hbuilt : includedFrom d node = some built)
    (hmem : .ok member ∈ built) : Stems known member.2 := by
  cases node with
  | scalar tag text =>
    rw [includedFrom] at hbuilt
    cases hbuilt
  | sequence tag items =>
    rw [includedFrom] at hbuilt
    exact stems_includedFromAll (knows_items h) hbuilt hmem
  | mapping tag mark members =>
    rw [includedFrom] at hbuilt
    obtain ⟨read, hread, rfl⟩ := Option.map_eq_some_iff.mp hbuilt
    exact stems_membersOf (knows_parts h) hread hmem

theorem stems_includedFromAll {d : Nat} {nodes : List Node} {built : List BuiltMember}
    {member : Value × Tree} (h : Knows known nodes) (hbuilt : includedFromAll d nodes = some built)
    (hmem : .ok member ∈ built) : Stems known member.2 := by
  cases nodes with
  | nil =>
    rw [includedFromAll] at hbuilt
    cases hbuilt
    cases hmem
  | cons node nodes =>
    obtain ⟨here, others⟩ := knows_cons.mp h
    cases node with
    | mapping tag mark members =>
      rw [includedFromAll] at hbuilt
      obtain ⟨own, hown, hbuilt⟩ := Option.bind_eq_some_iff.mp hbuilt
      obtain ⟨rest, hrest, hbuilt⟩ := Option.bind_eq_some_iff.mp hbuilt
      cases hbuilt
      rcases List.mem_append.mp hmem with hmem | hmem
      · exact stems_includedFromAll others hrest hmem
      · exact stems_membersOf (knows_parts here) hown hmem
    | _ =>
      simp only [includedFromAll] at hbuilt
      cases hbuilt

end

/-! ### Documents -/

/-- Trees that stem from mappings of which each number has one are coherent. -/
theorem coherent_of_stems {trees : List Tree} (h : ∀ tree ∈ trees, Stems known tree)
    (once : ∀ x ∈ known, ∀ y ∈ known, ∀ mark, x.mark? = some mark → y.mark? = some mark → x = y) :
    Tree.AreCoherent trees where
  once := by
    rintro x y mark ⟨tree, htree, hx⟩ ⟨other, hother, hy⟩ hmark hmark'
    obtain ⟨node, hnode, numbered, d, built⟩ := (h tree htree).marked x mark hx hmark
    obtain ⟨node', hnode', numbered', e, built'⟩ := (h other hother).marked y mark hy hmark'
    obtain rfl := once node hnode node' hnode' mark numbered numbered'
    exact (agree_construct d e node).eq built built'
  plain tree htree := (h tree htree).plain

/-- All documents from a state on stem from one set that accounts for their mappings. -/
theorem stems_documentsFrom {fuel : Nat} {first : Bool} {s : ParseState} {trees : List Tree}
    (accounts : Parser.Accounts known s) (h : documentsFrom fuel first s = .ok trees) :
    ∃ known' s', known ⊆ known' ∧ Parser.Accounts known' s' ∧
      ∀ tree ∈ trees, Stems known' tree := by
  induction fuel generalizing known first s trees with
  | zero =>
    cases h
    exact ⟨known, s, subset_rfl, accounts, nofun⟩
  | succ fuel ih =>
    rw [documentsFrom] at h
    obtain ⟨⟨document, s₁⟩, hread, h⟩ := bind_eq_ok.mp h
    have keeps : Parser.Keeps [] (Parser.document? first) Option.toList :=
      Parser.keeps_document? first
    obtain ⟨known₁, grows, accounts, hknown⟩ := keeps known s document s₁ accounts knows_nil hread
    cases document with
    | none =>
      cases h
      exact ⟨known₁, s₁, grows, accounts, nofun⟩
    | some node =>
      dsimp only at h
      split at h
      · cases h
      · rename_i tree htree
        obtain ⟨others, hothers, h⟩ := bind_eq_ok.mp h
        cases h
        obtain ⟨known₂, s₂, growsAgain, accounts, hstems⟩ := ih accounts hothers
        refine ⟨known₂, s₂, grows.trans growsAgain, accounts, ?_⟩
        exact List.forall_mem_cons.mpr ⟨stems_construct (hknown.mono growsAgain) htree, hstems⟩

/-- In the documents of a text, places with one mark hold one tree. -/
theorem coherent_documents {text : List Char} {trees : List Tree}
    (h : documents text = .ok trees) : Tree.AreCoherent trees := by
  rw [documents] at h
  split at h
  · have start : ∀ s : ParseState, s.anchors = [] → Parser.Accounts ∅ s := by
      intro s none
      refine ⟨?_, nofun, nofun⟩
      rw [none]
      exact nofun
    obtain ⟨known, s, -, accounts, stems⟩ := stems_documentsFrom (start _ rfl) h
    exact coherent_of_stems stems accounts.once
  · cases h

end Reconciler.Yaml

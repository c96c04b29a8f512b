import Reconciler.Proofs.Manifest.Building
import Reconciler.Proofs.Manifest.Reaching

/-!
# Lists in manifests

A list stands for what is in it, and what is in it may be lists again. So the objects of a manifest
are those of its mappings that are reached through lists and are no lists themselves. Each has its
own members, and the kind and the API version that the list right around it gives, if it has none
itself. The order of the document is that of the paths on which the objects are reached.

A mapping that stands at several places is given its defaults at all of them at once. So this needs
that a mapping which is given any stands nowhere else where that can be seen. Main statement: the
objects of a manifest are the leaves of its lists, each once and in the order of the document; they
are no lists, and flattening leaves them as they are.
-/

namespace Reconciler.Manifest

open Reconciler.Tree

/-! ### Leaves -/

/-- A mapping that is no list. -/
structure IsLeafAt (position : Position) (tree : Tree) : Prop where
  isMap : tree.isMap
  unlisted : ∀ kind items, ¬ IsListAt position tree kind items

/-- A mapping of a manifest with its position, and the path on which it is reached. -/
structure Place where
  path : List Nat
  position : Position
  tree : Tree

/-- The mapping as it is in its position. -/
def Place.object (place : Place) : Value := place.position.completed place.tree

/-- Places are listed in the order of their paths, which is the order of the document. Each that is
sought is listed, and nothing else. -/
structure IsListing (sought : List Nat → Position → Tree → Prop) (places : List Place) : Prop where
  ordered : places.Pairwise fun x y => x.path < y.path
  exact : ∀ place, place ∈ places ↔ sought place.path place.position place.tree

/-- A part of a mapping whose value is looked at: a member of a mapping that is no list, and the API
version of any. -/
inductive IsShown (position : Position) : Tree → Tree → Prop
  | member {mark : Option Nat} {members : List (Value × Tree)} {key : Value} {part : Tree}
      (leaf : IsLeafAt position (.map mark members)) (mem : (key, part) ∈ members) :
      IsShown position (.map mark members) part
  | version {tree part : Tree} (found : tree.member? [] "apiVersion" = some part) :
      IsShown position tree part

/-- What is given to a mapping is seen only where it belongs: the mapping is given the same at all
places with its mark, and if it is given anything, it stands in no part that is shown. -/
structure IsSteady (documents : List Tree) : Prop where
  same : ∀ position tree position' tree' mark, IsReached documents position tree →
    IsReached documents position' tree' → tree.mark? = some mark → tree'.mark? = some mark →
    position.missing tree = position'.missing tree'
  apart : ∀ position tree position' tree' part mark, IsReached documents position tree →
    tree.mark? = some mark → position.missing tree ≠ [] → IsReached documents position' tree' →
    IsShown position' tree' part → ¬part.Carries mark

/-! ### Reaching -/

variable {position inner : Position} {tree part : Tree} {trees items : List Tree} {kind : String}
  {path : List Nat}

theorem reaches_leaf_iff (leaf : ∀ kind items, ¬ IsListAt position tree kind items) :
    Reaches position tree path inner part ↔ path = [] ∧ inner = position ∧ part = tree := by
  constructor
  · intro h
    cases h with
    | here => exact ⟨rfl, rfl, rfl⟩
    | item list => exact absurd list (leaf _ _)
  · rintro ⟨rfl, rfl, rfl⟩
    exact .here inner part

theorem reaches_list_iff (list : IsListAt position tree kind items) :
    Reaches position tree path inner part ↔ (path = [] ∧ inner = position ∧ part = tree) ∨
      ReachesFrom 0 (position.inside tree kind) items path inner part := by
  constructor
  · intro h
    cases h with
    | here => exact .inl ⟨rfl, rfl, rfl⟩
    | item other there rest =>
      obtain ⟨rfl, rfl⟩ := list.unique other
      exact .inr ⟨_, _, _, by rw [Nat.zero_add], there, rest⟩
  · rintro (⟨rfl, rfl, rfl⟩ | ⟨index, item, rest, rfl, there, h⟩)
    · exact .here inner part
    · rw [Nat.zero_add]
      exact .item list there h

theorem reachesFrom_cons_iff {first : Nat} :
    ReachesFrom first position (tree :: trees) path inner part ↔
      (∃ rest, path = first :: rest ∧ Reaches position tree rest inner part) ∨
        ReachesFrom (first + 1) position trees path inner part := by
  constructor
  · rintro ⟨index, other, rest, rfl, there, h⟩
    cases index with
    | zero =>
      obtain rfl := Option.some.inj there
      exact .inl ⟨rest, rfl, h⟩
    | succ index => exact .inr ⟨index, other, rest, by rw [Nat.add_right_comm]; rfl, there, h⟩
  · rintro (⟨rest, rfl, h⟩ | ⟨index, other, rest, rfl, there, h⟩)
    · exact ⟨0, tree, rest, rfl, rfl, h⟩
    · exact ⟨index + 1, other, rest, by rw [Nat.add_right_comm]; rfl, there, h⟩

/-! ### Listing -/

namespace IsListing

variable {sought sought' : List Nat → Position → Tree → Prop} {places more : List Place}

theorem congr (h : IsListing sought places)
    (also : ∀ path position tree, sought' path position tree ↔ sought path position tree) :
    IsListing sought' places where
  ordered := h.ordered
  exact place := (h.exact place).trans (also _ _ _).symm

theorem nothing (none : ∀ path position tree, ¬ sought path position tree) :
    IsListing sought [] where
  ordered := List.Pairwise.nil
  exact _ := ⟨nofun, fun h => absurd h (none _ _ _)⟩

theorem single (place : Place) : IsListing (fun path position tree =>
    path = place.path ∧ position = place.position ∧ tree = place.tree) [place] where
  ordered := List.pairwise_singleton _ _
  exact other := by
    obtain ⟨path, position, tree⟩ := place
    obtain ⟨path', position', tree'⟩ := other
    simp

/-- The listing of an item, as one of the list around it. -/
theorem under (index : Nat) (h : IsListing sought places) :
    IsListing (fun path position tree => ∃ rest, path = index :: rest ∧ sought rest position tree)
      (places.map fun place => { place with path := index :: place.path }) where
  ordered := List.pairwise_map.mpr
    (h.ordered.imp fun before => List.cons_lt_cons_iff.mpr (.inr ⟨rfl, before⟩))
  exact place := by
    rw [List.mem_map]
    constructor
    · rintro ⟨below, hbelow, rfl⟩
      exact ⟨below.path, rfl, (h.exact below).mp hbelow⟩
    · rintro ⟨rest, hpath, hsought⟩
      obtain ⟨path, position, tree⟩ := place
      obtain rfl : path = index :: rest := hpath
      exact ⟨⟨rest, position, tree⟩, (h.exact ⟨rest, position, tree⟩).mpr hsought, rfl⟩

theorem append (first : IsListing sought places) (second : IsListing sought' more)
    (before : ∀ path position tree path' position' tree', sought path position tree →
      sought' path' position' tree' → path < path') :
    IsListing (fun path position tree => sought path position tree ∨ sought' path position tree)
      (places ++ more) where
  ordered := List.pairwise_append.mpr ⟨first.ordered, second.ordered, fun x hx y hy =>
    before _ _ _ _ _ _ ((first.exact x).mp hx) ((second.exact y).mp hy)⟩
  exact place := by rw [List.mem_append, first.exact, second.exact]

end IsListing

/-! ### What has been written -/

section Steady

variable {documents : List Tree} {writes writes' final : Writes}

/-- All that has been written to a mapping is what it is given in a position in which it is
reached. -/
def IsAccounted (documents : List Tree) (writes : Writes) : Prop :=
  ∀ mark, writes.given mark = [] ∨ ∃ position tree, IsReached documents position tree ∧
    tree.mark? = some mark ∧ writes.given mark = position.missing tree

theorem isAccounted_nil (documents : List Tree) : IsAccounted documents [] := fun _ => .inl rfl

/-- A mapping that is reached has been given nothing so far, or all that it is given. -/
theorem IsAccounted.given (accounted : IsAccounted documents writes) (steady : IsSteady documents)
    (reached : IsReached documents position tree) {mark : Nat} (marked : tree.mark? = some mark) :
    writes.given mark = [] ∨ writes.given mark = position.missing tree :=
  (accounted mark).imp_right fun ⟨position', tree', reached', marked', h⟩ =>
    h.trans (steady.same position' tree' position tree mark reached' reached marked' marked)

/-- What is given to a mapping that is reached stays. -/
theorem IsAccounted.given_later (accounted : IsAccounted documents final)
    (steady : IsSteady documents) (reached : IsReached documents position tree) {mark : Nat}
    (marked : tree.mark? = some mark) (h : writes.given mark = position.missing tree)
    (later : writes <+: final) : final.given mark = position.missing tree := by
  rcases accounted.given steady reached marked with none | all
  · obtain ⟨more, rfl⟩ := later
    rw [none]
    rw [Writes.given_append, h, List.append_eq_nil_iff] at none
    exact none.1.symm
  · exact all

/-- What is shown has nothing that is written. -/
theorem IsAccounted.value_of_shown (accounted : IsAccounted documents writes)
    (steady : IsSteady documents) (reached : IsReached documents position tree)
    (shown : IsShown position tree part) : part.value writes = part.value [] := by
  rw [← List.nil_append writes]
  refine value_append part [] fun write hmem carried => ?_
  have written := List.ne_nil_of_mem (Writes.mem_given hmem)
  rcases accounted write.mark with none | ⟨position', tree', reached', marked, given⟩
  · exact written none
  · rw [given] at written
    exact steady.apart position' tree' position tree part write.mark reached' marked written reached
      shown carried

theorem IsDefaulted.isAccounted {mark : Option Nat} {members : List (Value × Tree)} {object : Tree}
    (h : IsDefaulted position mark members writes object writes')
    (accounted : IsAccounted documents writes)
    (reached : IsReached documents position (.map mark members)) :
    IsAccounted documents writes' := by
  intro number
  by_cases same : mark = some number
  · exact .inr ⟨position, .map mark members, reached, same, h.given number same⟩
  · obtain ⟨later, rfl, own⟩ := h.later
    have other : later.given number = [] := by
      refine Writes.given_eq_nil fun write hmem => ?_
      rintro rfl
      exact same (own write hmem)
    rw [Writes.given_append, other, List.append_nil]
    exact accounted number

/-! ### Flattening -/

/-- Objects that are listed: those of the leaves among what is sought, of which all are mappings. -/
structure Lists (documents : List Tree) (sought : List Nat → Position → Tree → Prop)
    (writes : Writes) (objects : List Tree) (writes' : Writes) (places : List Place) : Prop where
  isMap : ∀ path position tree, sought path position tree → tree.isMap
  later : writes <+: writes'
  accounted : IsAccounted documents writes'
  listing : IsListing (fun path position tree => sought path position tree ∧ IsLeafAt position tree)
    places
  values : ∀ final, writes' <+: final → IsAccounted documents final →
    objects.map (Tree.value final) = places.map Place.object

/-- Flattening lists the objects of what is sought, unless not all of it are mappings. -/
structure Gathers (documents : List Tree) (sought : List Nat → Position → Tree → Prop)
    (writes : Writes) (result : Except Failure (List Tree × Writes)) : Prop where
  failing : ∀ failure, result = .error failure →
    failure.IsEncoding ∧ ∃ path position tree, sought path position tree ∧ tree.isMap = false
  listing : ∀ objects writes', result = .ok (objects, writes') →
    ∃ places, Lists documents sought writes objects writes' places

theorem gathers_error {sought : List Nat → Position → Tree → Prop} {failure : Failure}
    (encoding : failure.IsEncoding) (h : sought path position tree) (other : tree.isMap = false) :
    Gathers documents sought writes (.error failure) :=
  ⟨fun _ heq => Except.error.inj heq ▸ ⟨encoding, path, position, tree, h, other⟩, nofun⟩

theorem gathers_ok {sought : List Nat → Position → Tree → Prop} {objects : List Tree}
    {places : List Place} (h : Lists documents sought writes objects writes' places) :
    Gathers documents sought writes (.ok (objects, writes')) :=
  ⟨nofun, fun _ _ heq => by cases heq; exact ⟨places, h⟩⟩

/-- What is read of a mapping that is reached, when its defaults have been written. -/
structure IsRead (documents : List Tree) (position : Position) (tree : Tree) (writes : Writes)
    (object : Tree) (writes' : Writes) : Prop where
  later : writes <+: writes'
  accounted : IsAccounted documents writes'
  kind : object.get writes' "kind" = (position.completed tree).field "kind"
  version : object.get writes' "apiVersion" = (position.completed tree).field "apiVersion"
  value : IsLeafAt position tree → ∀ final, writes' <+: final → IsAccounted documents final →
    object.value final = position.completed tree

theorem isRead_writeDefaults (steady : IsSteady documents) {mark : Option Nat}
    {members : List (Value × Tree)} (kinds : kindIsText (.map mark members))
    (reached : IsReached documents position (.map mark members))
    (accounted : IsAccounted documents writes) :
    IsRead documents position (.map mark members) writes
      (position.writeDefaults writes (.map mark members)).1
      (position.writeDefaults writes (.map mark members)).2 := by
  have defaulted := isDefaulted_writeDefaults position fun number same =>
    accounted.given steady reached same
  generalize (position.writeDefaults writes (.map mark members)).1 = object,
    (position.writeDefaults writes (.map mark members)).2 = writes' at defaulted
  have accounted' := defaulted.isAccounted accounted reached
  refine ⟨?_, accounted', defaulted.get fun part found => ?_, defaulted.get fun part found => ?_,
    fun leaf final later accountedLater => ?_⟩
  · obtain ⟨later, rfl, -⟩ := defaulted.later
    exact List.prefix_append ..
  · rw [kindIsText, found] at kinds
    cases part with
    | leaf kind => rw [value, value]
    | _ => cases kinds
  · exact accounted'.value_of_shown steady reached (.version ((member?_nil ..).trans found))
  · rw [defaulted.value final fun number same =>
      accountedLater.given_later steady reached same (defaulted.given number same) later,
      completed_map, memberValues_eq_map, memberValues_eq_map]
    congr 2
    refine List.map_congr_left fun member hmember => ?_
    rw [accountedLater.value_of_shown steady reached (.member leaf hmember)]

theorem flattenItems_eq_none (position : Position) (writes : Writes)
    {members : List (Value × Tree)} (h : ∀ items, ¬find? members "items" = some (.list items)) :
    flattenItems position writes members = none := by
  induction members with
  | nil => rw [flattenItems]
  | cons member rest ih =>
    obtain ⟨key, tree⟩ := member
    rw [find?_cons] at h
    unfold flattenItems
    split
    · rename_i same
      rw [if_pos same] at h
      cases tree with
      | list items => exact absurd rfl (h items)
      | _ => rfl
    · rename_i other
      rw [if_neg other] at h
      exact ih h

/-- A mapping that is no list is listed by itself. -/
theorem IsRead.gathers_leaf {object : Tree}
    (read : IsRead documents position tree writes object writes') (leaf : IsLeafAt position tree) :
    Gathers documents (Reaches position tree) writes (.ok ([object], writes')) := by
  suffices Lists documents (Reaches position tree) writes [object] writes'
    [⟨[], position, tree⟩] from gathers_ok this
  constructor
  · rintro path inner part h
    obtain ⟨rfl, rfl, rfl⟩ := (reaches_leaf_iff leaf.unlisted).mp h
    exact leaf.isMap
  · exact read.later
  · exact read.accounted
  · refine (IsListing.single ⟨[], position, tree⟩).congr fun path inner part => ?_
    rw [reaches_leaf_iff leaf.unlisted]
    constructor
    · exact fun h => h.1
    · rintro ⟨rfl, rfl, rfl⟩
      exact ⟨⟨rfl, rfl, rfl⟩, leaf⟩
  · intro final later accounted
    rw [List.map_singleton, List.map_singleton, read.value leaf final later accounted]
    rfl

/-- The objects of a list are those of its items. -/
theorem Gathers.of_items {result : Except Failure (List Tree × Writes)} {middle : Writes}
    (list : IsListAt position tree kind items) (isMap : tree.isMap) (later : writes <+: middle)
    (h : Gathers documents (ReachesFrom 0 (position.inside tree kind) items) middle result) :
    Gathers documents (Reaches position tree) writes result := by
  refine ⟨fun failure heq => ?_, fun objects writes' heq => ?_⟩
  · obtain ⟨encoding, path, inner, part, reaches, other⟩ := h.failing failure heq
    exact ⟨encoding, path, inner, part, (reaches_list_iff list).mpr (.inr reaches), other⟩
  · obtain ⟨places, lists⟩ := h.listing objects writes' heq
    refine ⟨places, ?_, later.trans lists.later, lists.accounted, ?_, lists.values⟩
    · intro path inner part reaches
      rcases (reaches_list_iff list).mp reaches with ⟨-, -, rfl⟩ | reaches
      · exact isMap
      · exact lists.isMap path inner part reaches
    · refine lists.listing.congr fun path inner part => and_congr_left fun leaf => ?_
      rw [reaches_list_iff list, or_iff_right]
      rintro ⟨-, rfl, rfl⟩
      exact leaf.unlisted kind items list

/-- The objects of the first of several trees come before those of the others. -/
theorem Lists.append {first : Nat} {objects others : List Tree} {middle : Writes}
    {places more : List Place}
    (h : Lists documents (Reaches position tree) writes objects middle places)
    (h' : Lists documents (ReachesFrom (first + 1) position trees) middle others writes' more) :
    Lists documents (ReachesFrom first position (tree :: trees)) writes (objects ++ others) writes'
      (places.map (fun place => { place with path := first :: place.path }) ++ more) where
  isMap path inner part reaches := by
    rcases reachesFrom_cons_iff.mp reaches with ⟨rest, -, reaches⟩ | reaches
    · exact h.isMap rest inner part reaches
    · exact h'.isMap path inner part reaches
  later := h.later.trans h'.later
  accounted := h'.accounted
  listing := by
    refine ((h.listing.under first).append h'.listing ?_).congr fun path inner part => ?_
    · rintro path inner part path' inner' part' ⟨rest, rfl, -⟩ ⟨⟨index, other, rest', rfl, -⟩, -⟩
      exact List.cons_lt_cons_iff.mpr (.inl (by omega))
    · rw [reachesFrom_cons_iff, or_and_right]
      refine or_congr_left ?_
      constructor
      · rintro ⟨⟨rest, hpath, reaches⟩, leaf⟩
        exact ⟨rest, hpath, reaches, leaf⟩
      · rintro ⟨rest, hpath, reaches, leaf⟩
        exact ⟨⟨rest, hpath, reaches⟩, leaf⟩
  values final later accounted := by
    rw [List.map_append, List.map_append, h.values final (h'.later.trans later) accounted,
      h'.values final later accounted, List.map_map]
    rfl

mutual

/-- Flattening a document lists the leaves that are reached from it. -/
theorem gathers_flatten
    (kinds : ∀ position tree, IsReached documents position tree → kindIsText tree)
    (steady : IsSteady documents) {writes : Writes} {position : Position} {tree : Tree}
    (reached : IsReached documents position tree) (accounted : IsAccounted documents writes) :
    Gathers documents (Reaches position tree) writes (flatten position writes tree) := by
  cases tree with
  | map mark members =>
    have text := kinds position _ reached
    have read := isRead_writeDefaults steady text reached accounted
    rw [flatten]
    generalize position.writeDefaults writes (.map mark members) = defaulted at read ⊢
    obtain ⟨object, middle⟩ := defaulted
    dsimp only at read ⊢
    obtain ⟨kind, hkind⟩ := exists_kindText
      (Value.isTextOrAbsent_of_isTextIfPresent (isTextIfPresent_completed position rfl text))
    rw [read.kind, read.version, hkind]
    change Gathers documents _ writes (if isListKind kind = true then _ else .ok ([object], middle))
    have unlisted (other : ¬isListKind kind ∨ ∀ items, find? members "items" ≠ some (.list items)) :
        IsLeafAt position (.map mark members) := by
      refine ⟨rfl, fun kind' items list => ?_⟩
      rw [list.isKind, kindText_text] at hkind
      obtain rfl := Except.ok.inj hkind
      exact other.elim (· list.named) (· items ((member?_nil ..).symm.trans list.items))
    split
    · rename_i named
      by_cases found : ∃ items, find? members "items" = some (.list items)
      · obtain ⟨items, found⟩ := found
        have list : IsListAt position (.map mark members) kind items :=
          ⟨eq_text_of_kindText hkind named, named, (member?_nil ..).trans found⟩
        obtain ⟨result, hresult, h⟩ := gathers_flattenItems kinds steady read.accounted items found
          fun item there => reached.item list there
        have there : flattenItems (.item kind ((position.completed (.map mark members)).field
            "apiVersion")) middle members = some result := hresult
        rw [there]
        exact h.of_items list rfl read.later
      · rw [flattenItems_eq_none _ _ (not_exists.mp found)]
        exact read.gathers_leaf (unlisted (.inr (not_exists.mp found)))
    · rename_i other
      exact read.gathers_leaf (unlisted (.inl other))
  | _ =>
    rw [flatten]
    · exact gathers_error (Failure.isEncoding_problem (by cases position <;> rfl))
        (.here position _) rfl
    · exact nofun

theorem gathers_flattenItems
    (kinds : ∀ position tree, IsReached documents position tree → kindIsText tree)
    (steady : IsSteady documents) {writes : Writes} {position : Position}
    {members : List (Value × Tree)} (accounted : IsAccounted documents writes) :
    ∀ items, find? members "items" = some (.list items) →
      (∀ item ∈ items, IsReached documents position item) →
      ∃ result, flattenItems position writes members = some result ∧
        Gathers documents (ReachesFrom 0 position items) writes result := by
  cases members with
  | nil => exact nofun
  | cons member rest =>
    obtain ⟨key, tree⟩ := member
    unfold flattenItems
    rw [find?_cons]
    split
    · cases tree with
      | list items =>
        rintro _ ⟨⟩ reached
        exact ⟨_, rfl, gathers_flattenAll kinds steady reached accounted⟩
      | _ => exact nofun
    · exact gathers_flattenItems kinds steady accounted

theorem gathers_flattenAll
    (kinds : ∀ position tree, IsReached documents position tree → kindIsText tree)
    (steady : IsSteady documents) {writes : Writes} {position : Position} {first : Nat}
    {trees : List Tree} (reached : ∀ tree ∈ trees, IsReached documents position tree)
    (accounted : IsAccounted documents writes) :
    Gathers documents (ReachesFrom first position trees) writes
      (flattenAll position writes trees) := by
  cases trees with
  | nil =>
    rw [flattenAll_nil]
    have none : ∀ path inner part, ¬ReachesFrom first position [] path inner part :=
      fun _ _ _ ⟨_, _, _, _, there, _⟩ => nomatch there
    exact gathers_ok ⟨fun path inner part h => absurd h (none path inner part), List.prefix_rfl,
      accounted, IsListing.nothing fun path inner part h => none path inner part h.1,
      fun _ _ _ => rfl⟩
  | cons tree rest =>
    obtain ⟨here, others⟩ := List.forall_mem_cons.mp reached
    have gathered := gathers_flatten kinds steady here accounted
    rw [flattenAll]
    cases hfirst : flatten position writes tree with
    | error failure =>
      obtain ⟨encoding, path, inner, part, reaches, other⟩ := gathered.failing failure hfirst
      exact gathers_error encoding (reachesFrom_cons_iff.mpr (.inl ⟨path, rfl, reaches⟩)) other
    | ok read =>
      obtain ⟨objects, middle⟩ := read
      obtain ⟨places, lists⟩ := gathered.listing objects middle hfirst
      have gatheredRest : Gathers documents (ReachesFrom (first + 1) position rest) middle
          (flattenAll position middle rest) :=
        gathers_flattenAll kinds steady others lists.accounted
      change Gathers documents _ writes ((flattenAll position middle rest) >>= _)
      cases hrest : flattenAll position middle rest with
      | error failure =>
        obtain ⟨encoding, path, inner, part, reaches, other⟩ := gatheredRest.failing failure hrest
        exact gathers_error encoding (reachesFrom_cons_iff.mpr (.inr reaches)) other
      | ok read =>
        obtain ⟨more, last⟩ := read
        obtain ⟨morePlaces, listsRest⟩ := gatheredRest.listing more last hrest
        exact gathers_ok (lists.append listsRest)

end

end Steady

/-! ### Documents without shared mappings -/

/-- Where no mapping is shared, nothing is seen where it does not belong. -/
theorem isSteady_of_areUnmarked {documents : List Tree} (h : areUnmarked documents) :
    IsSteady documents := by
  have unmarked {position : Position} {tree : Tree} {mark : Nat}
      (reached : IsReached documents position tree) : tree.mark? ≠ some mark := by
    obtain ⟨document, hdocument, within⟩ := reached.exists_isIn
    exact fun marked =>
      not_carries_of_isUnmarked (isUnmarked_of_mem h hdocument) mark ⟨tree, within, marked⟩
  exact ⟨fun _ _ _ _ _ reached _ marked => absurd marked (unmarked reached),
    fun _ _ _ _ _ _ reached marked => absurd marked (unmarked reached)⟩

/-! ### Objects that are no lists -/

/-- A list of objects: its kind is one of lists, and under items it has a list. -/
def IsListObject (object : Value) : Prop :=
  ∃ kind items, object.field "kind" = .text kind ∧ isListKind kind ∧
    object.field "items" = .list items

/-- A leaf as it is in its position is no list, if the values of leaves are flat. -/
theorem IsLeafAt.not_isListObject (leaf : IsLeafAt position tree)
    (plain : ∀ value, (Tree.leaf value).IsIn tree → value.isFlat) :
    ¬IsListObject (position.completed tree) := by
  rintro ⟨kind, items, hkind, named, hitems⟩
  cases tree with
  | map mark members =>
    rw [completed_map, Value.field, Value.members_map, Members.field?_append,
      field?_additions_eq_none position _ (by decide) (by decide), Option.or_none,
      field?_memberValues] at hitems
    cases found : find? members "items" with
    | none =>
      rw [found] at hitems
      cases hitems
    | some part =>
      rw [found, Option.map_some] at hitems
      cases part with
      | list trees => exact leaf.unlisted kind trees ⟨hkind, named, (member?_nil ..).trans found⟩
      | leaf own =>
        rw [value] at hitems
        have flat := plain own (isIn_of_find? found)
        rw [show own = .list items from hitems] at flat
        cases flat
      | tuple trees =>
        rw [value] at hitems
        cases hitems
      | map mark members => cases mark <;> rw [value] at hitems <;> cases hitems
  | _ => cases leaf.isMap

/-- Flattening leaves an object as it is that is no list. -/
theorem flatten_ofValue {object : Value} (isMap : object.isMap)
    (kind : (object.field "kind").isTextIfPresent) (unlisted : ¬IsListObject object) :
    flatten .document [] (ofValue object) = .ok ([ofValue object], []) := by
  cases object with
  | map members =>
    have same := get_eq_field (show (Tree.map none (ofMembers members)).isMap from rfl) [] "kind"
    rw [← ofValue, value_ofValue] at same
    obtain ⟨name, hname⟩ := exists_kindText (Value.isTextOrAbsent_of_isTextIfPresent kind)
    rw [ofValue, flatten, Position.writeDefaults, ← ofValue]
    dsimp only
    rw [same, hname]
    change (if isListKind name = true then _ else _) = _
    split
    · rename_i named
      rw [flattenItems_eq_none]
      · rfl
      · intro items found
        refine unlisted ⟨name, values [] items, eq_text_of_kindText hname named, named, ?_⟩
        rw [Value.field, Value.members_map, ← memberValues_ofMembers [] members,
          field?_memberValues, found, Option.map_some, value]
        rfl
    · rfl
  | _ => cases isMap

theorem flattenAll_ofValues {objects : List Value} (h : ∀ object ∈ objects, object.isMap ∧
      (object.field "kind").isTextIfPresent ∧ ¬IsListObject object) :
    flattenAll .document [] (objects.map ofValue) = .ok (objects.map ofValue, []) := by
  induction objects with
  | nil => exact flattenAll_nil _ _
  | cons object rest ih =>
    obtain ⟨⟨isMap, kind, unlisted⟩, others⟩ := List.forall_mem_cons.mp h
    rw [List.map_cons, flattenAll, flatten_ofValue isMap kind unlisted]
    change (flattenAll .document [] (rest.map ofValue)) >>= _ = _
    rw [ih others]
    rfl

/-! ### Manifests -/

theorem gathers_loadTrees {source : Source} {documents : List Tree}
    (read : Manifest.documents source = .ok documents)
    (kinds : ∀ position tree, IsReached documents position tree → kindIsText tree)
    (steady : IsSteady documents) :
    Gathers documents (ReachesIn documents) [] (loadTrees source) := by
  rw [loadTrees, read]
  exact gathers_flattenAll kinds steady (fun _ => isReached_of_mem) (isAccounted_nil documents)

theorem load_of_flattenAll {source : Source} {documents objects : List Tree} {writes : Writes}
    (read : Manifest.documents source = .ok documents)
    (h : flattenAll .document [] documents = .ok (objects, writes)) :
    load source = .ok (objects.map (Tree.value writes)) := by
  refine load_eq_ok_iff.mpr ⟨objects, writes, ?_, rfl⟩
  rw [loadTrees, read]
  exact h

/-- The objects of a manifest are the leaves of its lists, each once and in the order of the
document, with their own members and what the list around each gives to it. There are none only if
something else than a mapping is reached, which is a problem of encoding. No object is a list, so
there is nothing more to flatten. -/
theorem load_lists_leaves {source : Source} {documents : List Tree}
    (read : Manifest.documents source = .ok documents)
    (kinds : ∀ position tree, IsReached documents position tree → kindIsText tree)
    (steady : IsSteady documents) :
    (∀ failure, load source = .error failure → failure.IsEncoding) ∧
    ((∃ failure, load source = .error failure) ↔
      ∃ position tree, IsReached documents position tree ∧ tree.isMap = false) ∧
    ∀ objects, load source = .ok objects →
      (∃ places, IsListing (fun path position tree =>
          ReachesIn documents path position tree ∧ IsLeafAt position tree) places ∧
        objects = places.map Place.object) ∧
      (∀ object ∈ objects, ¬IsListObject object) ∧
      flattenAll .document [] (objects.map Tree.ofValue) = .ok (objects.map Tree.ofValue, []) := by
  have gathered := gathers_loadTrees read kinds steady
  cases hload : loadTrees source with
  | error failure =>
    obtain ⟨encoding, path, position, tree, reaches, other⟩ := gathered.failing failure hload
    have fails : load source = .error failure := bind_eq_error.mpr (.inl hload)
    rw [fails]
    exact ⟨fun _ heq => Except.error.inj heq ▸ encoding,
      ⟨fun _ => ⟨position, tree, ⟨path, reaches⟩, other⟩, fun _ => ⟨failure, rfl⟩⟩, nofun⟩
  | ok found =>
    obtain ⟨trees, writes⟩ := found
    obtain ⟨places, lists⟩ := gathered.listing trees writes hload
    have values := lists.values writes List.prefix_rfl lists.accounted
    have loads : load source = .ok (places.map Place.object) := by
      rw [← values]
      exact load_eq_ok_iff.mpr ⟨trees, writes, hload, rfl⟩
    rw [loads]
    refine ⟨nofun, ⟨nofun, ?_⟩, ?_⟩
    · rintro ⟨position, tree, ⟨path, reaches⟩, other⟩
      rw [lists.isMap path position tree reaches] at other
      cases other
    · intro objects heq
      obtain rfl := Except.ok.inj heq
      have each : ∀ object ∈ places.map Place.object, object.isMap ∧
          (object.field "kind").isTextIfPresent ∧ ¬IsListObject object := by
        refine List.forall_mem_map.mpr fun place hplace => ?_
        obtain ⟨reaches, leaf⟩ := (lists.listing.exact place).mp hplace
        have reached : IsReached documents place.position place.tree := ⟨_, reaches⟩
        obtain ⟨document, hdocument, within⟩ := reached.exists_isIn
        have plain := (coherent_of_documents read).plain document hdocument
        exact ⟨rfl, isTextIfPresent_completed place.position leaf.isMap (kinds _ _ reached),
          leaf.not_isListObject fun value hvalue => plain value (hvalue.trans within)⟩
      exact ⟨⟨places, lists.listing, rfl⟩, fun object hobject => (each object hobject).2.2,
        flattenAll_ofValues each⟩

/-- A manifest with a list of lists, of which those inside have their kinds and API versions from
the one around them. -/
def nestedText : String :=
  "kind: List\nitems:\n- apiVersion: v2\n  kind: ConfigMapListList\n  items:\n" ++
  "  - items:\n    - name: a\n    - kind: Secret\n- name: b\n"

/-- The first two objects have a kind or an API version from the list right around them, which has
been given its own by the list around it, and the last one has neither. -/
theorem load_nested_lists :
    ∃ documents, Manifest.documents (.text nestedText) = .ok documents ∧
      (∀ position tree, IsReached documents position tree → kindIsText tree ∧ tree.isMap) ∧
      IsSteady documents ∧
      ∃ places, IsListing (fun path position tree =>
          ReachesIn documents path position tree ∧ IsLeafAt position tree) places ∧
        places.map Place.object = [
          .map [(.text "name", .text "a"), (.text "kind", .text "ConfigMap"),
            (.text "apiVersion", .text "v2")],
          .map [(.text "kind", .text "Secret"), (.text "apiVersion", .text "v2")],
          .map [(.text "name", .text "b")]] := by
  have run : (documents (.text nestedText)).toOption.any fun trees =>
      allHaveTextKinds trees && areUnmarked trees &&
        (flattenAll .document [] trees).toOption.any fun found =>
          decide (found.1.map (Tree.value found.2) = [
            .map [(.text "name", .text "a"), (.text "kind", .text "ConfigMap"),
              (.text "apiVersion", .text "v2")],
            .map [(.text "kind", .text "Secret"), (.text "apiVersion", .text "v2")],
            .map [(.text "name", .text "b")]]) := by decide +kernel
  obtain ⟨trees, hread, run⟩ := exists_of_any run
  obtain ⟨run, flattened⟩ := Bool.and_eq_true_iff.mp run
  obtain ⟨texts, unmarked⟩ := Bool.and_eq_true_iff.mp run
  obtain ⟨⟨objects, writes⟩, hflatten, values⟩ := exists_of_any flattened
  have hload := load_of_flattenAll hread hflatten
  rw [of_decide_eq_true values] at hload
  have kinds (position : Position) (tree : Tree) (reached : IsReached trees position tree) :
      kindIsText tree := reached.kindIsText texts
  have steady := isSteady_of_areUnmarked unmarked
  obtain ⟨-, fails, lists⟩ := load_lists_leaves hread kinds steady
  obtain ⟨⟨places, listing, objects⟩, -⟩ := lists _ hload
  refine ⟨trees, hread, fun position tree reached => ⟨kinds position tree reached, ?_⟩, steady,
    places, listing, objects.symm⟩
  by_contra other
  obtain ⟨failure, failed⟩ := fails.mpr ⟨position, tree, reached, Bool.eq_false_iff.mpr other⟩
  rw [hload] at failed
  cases failed

/-- A manifest in which an item of a list of config maps stands a second time, in a plain list. -/
def twiceListedText : String :=
  "kind: List\nitems:\n- kind: ConfigMapList\n  items:\n  - &a\n    name: x\n- *a\n"

/-- The items of a list. -/
def listItems : Tree → List Tree
  | .list items => items
  | _ => []

/-- Items of plain lists may have defaults as well: what is given to a mapping is seen wherever the
mapping stands. -/
theorem alias_carries_defaults :
    ¬∀ (source : Source) (documents : List Tree), Manifest.documents source = .ok documents →
      (∀ position tree, IsReached documents position tree → kindIsText tree) →
      ∀ objects, load source = .ok objects →
        ∃ places, IsListing (fun path position tree =>
            ReachesIn documents path position tree ∧ IsLeafAt position tree) places ∧
          objects = places.map Place.object := by
  intro lists
  have run : (documents (.text twiceListedText)).toOption.any fun trees =>
      (allHaveTextKinds trees && trees[0]?.any fun tree =>
        decide ((tree.value []).field "kind" = .text "List") &&
          (tree.member? [] "items").any fun part => (listItems part)[1]?.any fun item =>
            item.isMap && decide ((item.value []).field "kind" = .null)) &&
        (flattenAll .document [] trees).toOption.any fun found =>
          (found.1.map (Tree.value found.2)).all fun object =>
            decide (object.field "kind" = .text "ConfigMap") := by decide +kernel
  obtain ⟨trees, hread, run⟩ := exists_of_any run
  obtain ⟨run, flattened⟩ := Bool.and_eq_true_iff.mp run
  obtain ⟨texts, run⟩ := Bool.and_eq_true_iff.mp run
  obtain ⟨⟨objects, writes⟩, hflatten, kinds⟩ := exists_of_any flattened
  obtain ⟨places, listing, hplaces⟩ := lists _ trees hread
    (fun _ _ reached => reached.kindIsText texts) _ (load_of_flattenAll hread hflatten)
  rw [hplaces] at kinds
  obtain ⟨tree, there, run⟩ := (Option.any_eq_true _ _).mp run
  obtain ⟨plain, run⟩ := Bool.and_eq_true_iff.mp run
  obtain ⟨part, hpart, run⟩ := (Option.any_eq_true _ _).mp run
  cases part with
  | list items =>
    obtain ⟨item, thereIn, run⟩ := (Option.any_eq_true _ _).mp run
    obtain ⟨isMap, unnamed⟩ := Bool.and_eq_true_iff.mp run
    have list : IsListAt .document tree "List" items :=
      ⟨(field_completed rfl "kind").trans (of_decide_eq_true plain), rfl, hpart⟩
    -- The plain list gives nothing to its second item, so this has no kind there.
    have own : (Position.inside .document tree "List").missing item = [] := rfl
    have noKind := (field_completed own "kind").trans (of_decide_eq_true unnamed)
    have leaf : IsLeafAt (Position.inside .document tree "List") item := by
      refine ⟨isMap, fun kind items list => ?_⟩
      have isKind := list.isKind
      rw [noKind] at isKind
      cases isKind
    have reaches : ReachesIn trees [0, 1] (Position.inside .document tree "List") item :=
      ⟨0, tree, [1], rfl, there, .item list thereIn (.here _ item)⟩
    have listed := (listing.exact ⟨[0, 1], _, item⟩).mpr ⟨reaches, leaf⟩
    have kind := of_decide_eq_true (List.all_eq_true.mp kinds _ (List.mem_map_of_mem listed))
    cases noKind.symm.trans kind
  | _ => cases run

end Reconciler.Manifest

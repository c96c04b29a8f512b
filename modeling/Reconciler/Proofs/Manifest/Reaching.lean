import Reconciler.Proofs.Manifest.Defaulting
import Reconciler.Proofs.Schema.Undeclared

/-!
# What is reached in a manifest

Loading goes from lists to their items, which may be lists again. A mapping is a list by its kind in
its position: its own kind, or the one that the list right around it gives. All else in a document,
such as a list under `items` in a mapping that is no list, is passed over. So what loading asks of a
kind is asked of the mappings that are reached.
-/

namespace Reconciler.Manifest

open Reconciler.Tree

/-! ### Places in lists -/

/-- A mapping is a list of a kind in its position, with these items. -/
structure IsListAt (position : Position) (tree : Tree) (kind : String) (items : List Tree) :
    Prop where
  isKind : (position.completed tree).field "kind" = .text kind
  named : isListKind kind
  items : tree.member? [] "items" = some (.list items)

/-- The position of the items of a list: its kind and its API version are those that it has after
it has been given its own. -/
def Position.inside (position : Position) (tree : Tree) (kind : String) : Position :=
  .item kind ((position.completed tree).field "apiVersion")

/-- A part of a tree is reached by going from lists to their items. -/
inductive Reaches : Position → Tree → List Nat → Position → Tree → Prop
  | here (position : Position) (tree : Tree) : Reaches position tree [] position tree
  | item {position inner : Position} {tree item part : Tree} {kind : String} {items : List Tree}
      {index : Nat} {path : List Nat} (list : IsListAt position tree kind items)
      (there : items[index]? = some item)
      (rest : Reaches (position.inside tree kind) item path inner part) :
      Reaches position tree (index :: path) inner part

/-- A part is reached from one of several trees in a position. The index of the first one is given,
and it is the first step of the path. -/
def ReachesFrom (first : Nat) (position : Position) (trees : List Tree) (path : List Nat)
    (inner : Position) (part : Tree) : Prop :=
  ∃ index tree rest, path = (first + index) :: rest ∧ trees[index]? = some tree ∧
    Reaches position tree rest inner part

/-- A part of a manifest is reached from one of its documents. -/
def ReachesIn (documents : List Tree) : List Nat → Position → Tree → Prop :=
  ReachesFrom 0 .document documents

/-- A part is reached from a document of a manifest in a position. -/
def IsReached (documents : List Tree) (position : Position) (tree : Tree) : Prop :=
  ∃ path, ReachesIn documents path position tree

variable {position inner : Position} {tree part : Tree} {trees items : List Tree} {kind : String}
  {path : List Nat}

theorem IsListAt.unique {kind' : String} {items' : List Tree}
    (h : IsListAt position tree kind items) (h' : IsListAt position tree kind' items') :
    kind = kind' ∧ items = items' := by
  have sameKind := h.isKind.symm.trans h'.isKind
  have sameItems := h.items.symm.trans h'.items
  simp only [Value.text.injEq, Option.some.injEq, Tree.list.injEq] at sameKind sameItems
  exact ⟨sameKind, sameItems⟩

/-- The items of a list that is reached are reached. -/
theorem Reaches.trans {middle : Position} {between : Tree} {path' : List Nat}
    (h : Reaches position tree path middle between) (h' : Reaches middle between path' inner part) :
    Reaches position tree (path ++ path') inner part := by
  induction h with
  | here => exact h'
  | item list there _ ih => exact .item list there (ih h')

theorem isReached_of_mem {documents : List Tree} (h : tree ∈ documents) :
    IsReached documents .document tree := by
  obtain ⟨index, there⟩ := List.mem_iff_getElem?.mp h
  exact ⟨_, index, tree, [], rfl, there, .here .document tree⟩

theorem IsReached.item {documents : List Tree} {item : Tree}
    (h : IsReached documents position tree) (list : IsListAt position tree kind items)
    (there : item ∈ items) : IsReached documents (position.inside tree kind) item := by
  obtain ⟨path, index, document, rest, rfl, hdocument, reaches⟩ := h
  obtain ⟨i, hi⟩ := List.mem_iff_getElem?.mp there
  exact ⟨_, index, document, _, rfl, hdocument, reaches.trans (.item list hi (.here _ item))⟩

theorem Reaches.isIn (h : Reaches position tree path inner part) : part.IsIn tree := by
  induction h with
  | here => exact .self
  | item list there _ ih =>
    have items := isIn_of_member? (List.forall_mem_nil _) list.items
    exact (ih.trans (.item (List.mem_of_getElem? there) .self)).trans items

theorem IsReached.exists_isIn {documents : List Tree} (h : IsReached documents position tree) :
    ∃ document ∈ documents, tree.IsIn document := by
  obtain ⟨path, index, document, rest, -, there, reaches⟩ := h
  exact ⟨document, List.mem_of_getElem? there, reaches.isIn⟩

/-! ### Kinds that are text -/

/-- Whether the kind of a document is text if it has one. -/
def kindIsText : Tree → Bool
  | .map _ members => (find? members "kind").all fun
    | .leaf kind => kind.isTextIfPresent
    | _ => false
  | _ => true

mutual

/-- Whether the kinds of a document and of all that might be reached in it are text. This is more
than loading needs: it looks under `items` whether or not that makes a mapping a list. -/
def hasTextKinds : Tree → Bool
  | .map mark members => kindIsText (.map mark members) && itemsHaveTextKinds members
  | _ => true

/-- Whether the kinds in the list under `items` are text. -/
def itemsHaveTextKinds : List (Value × Tree) → Bool
  | [] => true
  | (key, tree) :: rest =>
    if Value.sameKey (.text "items") key then
      match tree with
      | .list items => allHaveTextKinds items
      | _ => true
    else itemsHaveTextKinds rest

/-- Whether the kinds of documents are text. -/
def allHaveTextKinds : List Tree → Bool
  | [] => true
  | tree :: rest => hasTextKinds tree && allHaveTextKinds rest

end

theorem exists_kindText {kind : Value} (h : kind.isTextOrAbsent) :
    ∃ text, kindText kind = .ok text := by
  unfold kindText
  by_cases present : kind.isTruthy
  · rw [if_pos present]
    obtain ⟨name, rfl⟩ := Value.exists_text h present
    exact ⟨name, rfl⟩
  · rw [if_neg present]
    exact ⟨_, rfl⟩

theorem kindText_text (kind : String) : kindText (.text kind) = .ok kind := by
  by_cases present : (Value.text kind).isTruthy
  · rw [kindText, if_pos present]
  · rw [kindText, if_neg present]
    have absent : kind.isEmpty := by simpa [Value.isTruthy] using present
    rw [String.isEmpty_iff.mp absent]

/-- What is no text is not taken for the kind of a list. -/
theorem eq_text_of_kindText {value : Value} (h : kindText value = .ok kind)
    (named : isListKind kind) : value = .text kind := by
  unfold kindText at h
  split at h
  · split at h <;> cases h
    rfl
  · cases h
    exact absurd named (by decide)

theorem hasTextKinds_of_mem (h : allHaveTextKinds trees) (mem : tree ∈ trees) :
    hasTextKinds tree := by
  induction mem with
  | head => exact (Bool.and_eq_true_iff.mp h).1
  | tail _ _ ih => exact ih (Bool.and_eq_true_iff.mp h).2

theorem allHaveTextKinds_of_find? {members : List (Value × Tree)} (h : itemsHaveTextKinds members)
    (found : find? members "items" = some (.list items)) : allHaveTextKinds items := by
  induction members with
  | nil => cases found
  | cons member rest ih =>
    obtain ⟨key, tree⟩ := member
    rw [find?_cons] at found
    unfold itemsHaveTextKinds at h
    split at found
    · rename_i same
      rw [if_pos same, Option.some.inj found] at h
      exact h
    · rename_i other
      rw [if_neg other] at h
      exact ih h found

theorem Reaches.hasTextKinds (h : Reaches position tree path inner part)
    (texts : Manifest.hasTextKinds tree) : Manifest.hasTextKinds part := by
  induction h with
  | here => exact texts
  | @item _ _ tree _ _ _ _ _ _ list there _ ih =>
    refine ih ?_
    cases tree with
    | map mark members =>
      rw [Manifest.hasTextKinds, Bool.and_eq_true] at texts
      have items := allHaveTextKinds_of_find? texts.2 ((member?_nil ..).symm.trans list.items)
      exact hasTextKinds_of_mem items (List.mem_of_getElem? there)
    | _ => cases list.items

theorem IsReached.kindIsText {documents : List Tree} (h : IsReached documents position tree)
    (texts : allHaveTextKinds documents) : Manifest.kindIsText tree := by
  obtain ⟨path, index, document, rest, -, there, reaches⟩ := h
  have text := reaches.hasTextKinds (hasTextKinds_of_mem texts (List.mem_of_getElem? there))
  cases tree with
  | map mark members =>
    rw [Manifest.hasTextKinds, Bool.and_eq_true] at text
    exact text.1
  | _ => rfl

/-- The kinds that are given are text. -/
theorem isTextIfPresent_completed (position : Position) (isMap : tree.isMap)
    (h : kindIsText tree) : ((position.completed tree).field "kind").isTextIfPresent := by
  rw [field_kind_completed position isMap]
  cases tree with
  | map mark members =>
    rw [member?_nil]
    rw [kindIsText] at h
    cases found : find? members "kind" with
    | some kind =>
      rw [found] at h
      cases kind with
      | leaf kind =>
        rw [Option.map_some, value, Option.some_or]
        exact h
      | _ => cases h
    | none =>
      cases position with
      | document => rfl
      | item kind apiVersion =>
        rw [Position.kind?]
        split <;> rfl
  | _ => cases isMap

end Reconciler.Manifest

import Reconciler.Cluster.Store
import Reconciler.Proofs.Value.Json
import Reconciler.Schema.Selector

/-!
# What selectors select

A label selector requires labels, and it may have expressions about labels beside them. To the
server it is the text of its labels alone. That text is read back at its commas and at the first
equals sign of each part. As long as no key and no value of the labels has a comma, and no key
an equals sign, this gives the labels again, in some order. An object is then selected by the
text exactly if it has all of the labels, whatever the expressions say of it.
-/

namespace Reconciler

namespace Cluster

variable {separator : Char} {part : List Char}

theorem splitAt_cons_self (separator : Char) (text : List Char) :
    splitAt separator (separator :: text) = [] :: splitAt separator text := by
  have parts : splitAt separator text ≠ [] := by
    induction text with
    | nil => simp [splitAt]
    | cons c rest ih =>
      obtain ⟨first, more, hrest⟩ := List.exists_cons_of_ne_nil ih
      rw [splitAt] at hrest ⊢
      rw [List.foldr_cons, hrest]
      dsimp only
      split <;> simp
  obtain ⟨first, more, htext⟩ := List.exists_cons_of_ne_nil parts
  rw [htext]
  rw [splitAt] at htext ⊢
  rw [List.foldr_cons, htext]
  exact if_pos (beq_self_eq_true separator)

theorem splitAt_cons_of_ne {c : Char} (h : c ≠ separator) {text first : List Char}
    {more : List (List Char)} (htext : splitAt separator text = first :: more) :
    splitAt separator (c :: text) = (c :: first) :: more := by
  rw [splitAt] at htext ⊢
  rw [List.foldr_cons, htext]
  exact if_neg (by simpa using h)

theorem splitAt_of_not_mem (h : separator ∉ part) : splitAt separator part = [part] := by
  induction part with
  | nil => rfl
  | cons c rest ih =>
    obtain ⟨hc, hrest⟩ := List.ne_and_not_mem_of_not_mem_cons h
    exact splitAt_cons_of_ne hc.symm (ih hrest)

/-- The text is split at the first separator after a part without one. -/
theorem splitAt_append (h : separator ∉ part) (rest : List Char) :
    splitAt separator (part ++ separator :: rest) = part :: splitAt separator rest := by
  induction part with
  | nil => exact splitAt_cons_self separator rest
  | cons c part ih =>
    obtain ⟨hc, hpart⟩ := List.ne_and_not_mem_of_not_mem_cons h
    exact splitAt_cons_of_ne hc.symm (ih hpart)

/-- Splitting undoes joining. -/
theorem splitAt_intercalate {parts : List (List Char)} (present : parts ≠ [])
    (h : ∀ part ∈ parts, separator ∉ part) :
    splitAt separator ([separator].intercalate parts) = parts := by
  induction parts with
  | nil => exact (present rfl).elim
  | cons part rest ih =>
    obtain ⟨hpart, hrest⟩ := List.forall_mem_cons.mp h
    cases rest with
    | nil => simpa using splitAt_of_not_mem hpart
    | cons next rest =>
      have joined : [separator].intercalate (part :: next :: rest) =
          part ++ separator :: [separator].intercalate (next :: rest) := by
        simp [List.intercalate]
      rw [joined, splitAt_append hpart, ih (by simp) hrest]

/-- A part of a selector requires what stands before and after its first equals sign. -/
theorem requirement_append {key : List Char} (h : '=' ∉ key) (value : List Char) :
    requirement (key ++ '=' :: value) = (String.ofList key, String.ofList value) := by
  have before : (key ++ '=' :: value).takeWhile (fun c => c != '=') = key := by
    rw [List.takeWhile_append_of_pos, List.takeWhile_cons_of_neg (by simp), List.append_nil]
    intro c hc
    simpa using fun heq : c = '=' => h (heq ▸ hc)
  have after : (key ++ '=' :: value).drop (key.length + 1) = value := by
    rw [List.drop_append, List.drop_eq_nil_of_le (by omega), Nat.add_sub_cancel_left]
    rfl
  rw [requirement, before, after]

end Cluster

namespace Schema

open Cluster (requirements requirement)

/-- Whether a label can be required by the text of a selector: its key and value are text, and
have none of the signs that the text has between them. -/
def isRequirable : Value × Value → Bool
  | (.text key, .text value) =>
    !key.toList.contains ',' && !key.toList.contains '=' && !value.toList.contains ','
  | _ => false

/-- A label as a pair of texts. -/
def textPair (label : Value × Value) : String × String := (label.1.plain, label.2.plain)

theorem isRequirable_iff {label : Value × Value} : isRequirable label ↔
    ∃ key value : String, label = (.text key, .text value) ∧ ',' ∉ key.toList ∧
      '=' ∉ key.toList ∧ ',' ∉ value.toList := by
  constructor
  · intro h
    unfold isRequirable at h
    split at h
    · rename_i key value
      simp only [Bool.and_eq_true, Bool.not_eq_true', List.contains_eq_mem,
        decide_eq_false_iff_not] at h
      exact ⟨key, value, rfl, h.1.1, h.1.2, h.2⟩
    · cases h
  · rintro ⟨key, value, rfl, hkey, hsign, hvalue⟩
    simp [isRequirable, hkey, hsign, hvalue]

theorem toList_requirementText (key value : String) :
    (requirementText (.text key, .text value)).toList = key.toList ++ '=' :: value.toList := by
  simp [requirementText]

theorem not_mem_requirementText {label : Value × Value} (h : isRequirable label) :
    ',' ∉ (requirementText label).toList := by
  obtain ⟨key, value, rfl, hkey, -, hvalue⟩ := isRequirable_iff.mp h
  rw [toList_requirementText]
  simp [hkey, hvalue]

theorem requirement_requirementText {label : Value × Value} (h : isRequirable label) :
    requirement (requirementText label).toList = textPair label := by
  obtain ⟨key, value, rfl, -, hsign, -⟩ := isRequirable_iff.mp h
  rw [toList_requirementText, Cluster.requirement_append hsign, String.ofList_toList,
    String.ofList_toList]
  rfl

/-- The text of labels, read back, requires these labels. -/
theorem requirements_selectorText {labels : Members} {text : String} (nonempty : labels ≠ [])
    (h : ∀ label ∈ labels, isRequirable label) (htext : selectorText labels = .ok text) :
    (requirements text).Perm (labels.map textPair) := by
  unfold selectorText at htext
  split at htext
  · rename_i sorted hsorted
    have perm : sorted.Perm labels := by
      unfold Value.sortBy? at hsorted
      split at hsorted
      · cases hsorted
        exact Value.sortBy_perm _ labels
      · cases hsorted
    have below : ∀ label ∈ sorted, isRequirable label := fun label hmem =>
      h label (perm.mem_iff.mp hmem)
    have present : sorted ≠ [] := by
      rintro rfl
      exact nonempty perm.nil_eq.symm
    have parts : Cluster.splitAt ','
        (String.intercalate "," (sorted.map requirementText)).toList =
          sorted.map fun label => (requirementText label).toList := by
      rw [String.toList_intercalate, List.map_map]
      refine Cluster.splitAt_intercalate (by simpa using present) fun part hpart => ?_
      obtain ⟨label, hmem, rfl⟩ := List.mem_map.mp hpart
      exact not_mem_requirementText (below label hmem)
    rw [Except.ok.inj htext] at parts
    have written : text.isEmpty = false := by
      refine Bool.eq_false_iff.mpr fun hempty => ?_
      rw [String.isEmpty_iff.mp hempty] at parts
      obtain ⟨label, rest, rfl⟩ := List.exists_cons_of_ne_nil present
      have blank : (requirementText label).toList = [] := (List.cons.inj parts).1.symm
      obtain ⟨key, value, rfl, -⟩ := isRequirable_iff.mp (below label (by simp))
      rw [toList_requirementText] at blank
      simp at blank
    have read : requirements text = sorted.map textPair := by
      rw [requirements, written, if_neg Bool.false_ne_true, parts, List.map_map]
      exact List.map_congr_left fun label hmem => requirement_requirementText (below label hmem)
    rw [read]
    exact perm.map textPair
  · cases htext

/-- Whether an object has a label. -/
def hasLabel (object : Value) (label : Value × Value) : Bool :=
  ((Cluster.metadataField object "labels").members.at? label.1).any fun own =>
    own.equal false label.2

theorem hasLabels_iff {required : List (String × String)} {object : Value} :
    Cluster.hasLabels required object ↔ ∀ pair ∈ required,
      ((Cluster.metadataField object "labels").members.field? pair.1).any
        fun value => value.equal false (.text pair.2) := by
  rw [Cluster.hasLabels, List.all_eq_true]
  refine forall₂_congr fun pair _ => ?_
  cases (Cluster.metadataField object "labels").members.field? pair.1 <;> rfl

/-- What the text of labels selects has all of these labels, and what has them all is
selected. -/
theorem selects_selectorText {labels : Members} {text : String}
    (h : ∀ label ∈ labels, isRequirable label) (htext : selectorText labels = .ok text)
    (object : Value) :
    Cluster.selects text object ↔ ∀ label ∈ labels, hasLabel object label := by
  have perm : (requirements text).Perm (labels.map textPair) := by
    rcases Decidable.em (labels = []) with rfl | nonempty
    · cases htext
      rfl
    · exact requirements_selectorText nonempty h htext
  have each : ∀ label ∈ labels, hasLabel object label =
      ((Cluster.metadataField object "labels").members.field? (textPair label).1).any
        fun value => value.equal false (.text (textPair label).2) := by
    intro label hmem
    obtain ⟨key, value, rfl, -⟩ := isRequirable_iff.mp (h label hmem)
    rw [hasLabel, textPair, Value.plain_text, Value.plain_text, Members.field?]
  rw [Cluster.selects, hasLabels_iff]
  constructor
  · intro all label hmem
    rw [each label hmem]
    exact all _ (perm.mem_iff.mpr (List.mem_map_of_mem hmem))
  · intro all pair hpair
    obtain ⟨label, hmem, rfl⟩ := List.mem_map.mp (perm.mem_iff.mp hpair)
    exact (each label hmem).symm.trans (all label hmem)

theorem selects_eq_all {labels : Members} {text : String}
    (h : ∀ label ∈ labels, isRequirable label) (htext : selectorText labels = .ok text) :
    Cluster.selects text = fun object => labels.all (hasLabel object) := by
  funext object
  rw [Bool.eq_iff_iff, selects_selectorText h htext, List.all_eq_true]

/-! ### Whole label selectors -/

/-- Whether labels meet an expression of a label selector. No labels meet one whose operator is
unknown. -/
def meetsExpression (labels : Members) (expression : Value) : Bool :=
  let own := labels.at? (Value.ofOption (expression.members.field? "key"))
  let isListed (label : Value) : Bool :=
    match expression.members.field? "values" with
    | some (.list values) => values.any fun value => label.equal false value
    | _ => false
  match expression.members.field? "operator" with
  | some (.text "In") => own.any isListed
  | some (.text "NotIn") => !own.any isListed
  | some (.text "Exists") => own.isSome
  | some (.text "DoesNotExist") => own.isNone
  | _ => false

/-- The expressions of a label selector. -/
def expressionsOf (selector : Value) : List Value :=
  match selector.members.field? "matchExpressions" with
  | some (.list expressions) => expressions
  | _ => []

/-- The labels that a label selector requires. -/
def requiredOf (selector : Value) : Members :=
  (Value.ofOption (selector.members.field? "matchLabels")).members

/-- Whether an object has what the whole of a label selector asks for. -/
def isSelectedBy (selector object : Value) : Bool :=
  ((requiredOf selector).all (hasLabel object)) &&
    (expressionsOf selector).all
      (meetsExpression (Cluster.metadataField object "labels").members)

/-- The labels by which an object's pods are found are those that its label selector requires. -/
theorem matchLabels_eq_requiredOf {object selector : Value} {labels : Members}
    (hselector : selectorField object = .ok selector) (nonempty : requiredOf selector ≠ [])
    (h : matchLabels object = .ok labels) : labels = requiredOf selector := by
  unfold matchLabels at h
  obtain ⟨_, hfound, h⟩ := bind_eq_ok.mp h
  obtain rfl := Except.ok.inj (hselector.symm.trans hfound)
  obtain ⟨required, hrequired, h⟩ := bind_eq_ok.mp h
  cases selector with
  | map members =>
    rw [Value.get_map] at hrequired
    cases hrequired
    unfold requiredOf at nonempty ⊢
    rw [Value.members_map] at nonempty ⊢
    cases hfield : Members.field? members "matchLabels" with
    | none =>
      rw [hfield] at nonempty
      exact (nonempty rfl).elim
    | some found =>
      rw [hfield] at nonempty h
      cases found with
      | map labels =>
        have truthy : (Value.map labels).isTruthy = true := by
          cases labels with
          | nil => exact (nonempty rfl).elim
          | cons label rest => rfl
        rw [Value.ofOption_some, Value.orEmpty, Value.orElse, if_pos truthy] at h
        exact (Except.ok.inj h).symm
      | _ => exact (nonempty rfl).elim
  | _ => cases hrequired

end Schema

end Reconciler

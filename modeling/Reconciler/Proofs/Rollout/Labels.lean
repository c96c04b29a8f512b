import Reconciler.Proofs.Value.Decidable
import Reconciler.Proofs.Value.Names
import Reconciler.Proofs.Value.Tree
import Reconciler.Rollout.Generation

/-!
# Templates apart from the hash label

The server labels the template of each replica set with a hash that the deployment's own template
does not have. Two templates are compared by their normal forms, which have no such label, no
labels that are empty without it and no empty metadata. So what the hash label is, and whether it
is there, makes no difference, with one exception: labels that are empty before a hash label has
been taken out of them stay in the normal form. Main statement: the comparison is an equivalence,
and it does not see the hash label unless the labels are empty without it and are there.
-/

namespace Reconciler

namespace Members

/-- What is written to a key does not matter once the key is removed. -/
theorem without_put (members : Members) (name : String) (value : Value) :
    (members.put (.text name) value).without (.text name) = members.without (.text name) := by
  induction members with
  | nil => simp [put, without]
  | cons member rest ih =>
    obtain ⟨key, old⟩ := member
    rw [without] at ih ⊢
    by_cases same : Value.sameKey (.text name) key
    · simp [put, without, same]
    · simp [put, without, same, ih]

theorem without_without (members : Members) (key : Value) :
    (members.without key).without key = members.without key := by
  simp [without, List.filter_filter]

/-- Removing what is not there changes nothing. -/
theorem without_eq_self {members : Members} {name : String} (absent : members.field? name = none) :
    members.without (.text name) = members := by
  have free : members.has (.text name) = false := by rw [has_text, absent]; rfl
  refine List.filter_eq_self.mpr fun member hmem => ?_
  rw [Bool.not_eq_true', Bool.eq_false_iff]
  intro same
  exact List.any_eq_false.mp free member hmem same

theorem mem_put_iff_or {members : Members} {key value : Value} {member : Value × Value}
    (h : member ∈ members.put key value) :
    member ∈ members ∨ member.2 = value ∧ (member.1 = key ∨ ∃ old, (member.1, old) ∈ members) := by
  induction members with
  | nil =>
    rw [List.mem_singleton.mp h]
    exact .inr ⟨rfl, .inl rfl⟩
  | cons other rest ih =>
    obtain ⟨own, old⟩ := other
    rw [put] at h
    split at h
    · rcases List.mem_cons.mp h with rfl | hrest
      · exact .inr ⟨rfl, .inr ⟨old, List.mem_cons_self ..⟩⟩
      · exact .inl (List.mem_cons_of_mem _ hrest)
    · rcases List.mem_cons.mp h with rfl | hrest
      · exact .inl (List.mem_cons_self ..)
      · rcases ih hrest with here | ⟨written, rfl | ⟨older, hmem⟩⟩
        · exact .inl (List.mem_cons_of_mem _ here)
        · exact .inr ⟨written, .inl rfl⟩
        · exact .inr ⟨written, .inr ⟨older, List.mem_cons_of_mem _ hmem⟩⟩

theorem put_ne_nil (members : Members) (key value : Value) : members.put key value ≠ [] := by
  cases members with
  | nil => exact List.cons_ne_nil _ _
  | cons member rest =>
    rw [put]
    split <;> exact List.cons_ne_nil _ _

end Members

namespace Value

/-- A property of values that members of a mapping have if the mapping has it, and that the
mapping keeps when members with the property are written to it and when members are removed. -/
structure IsKept (P : Value → Prop) : Prop where
  member {members : Members} {name : String} {value : Value} (h : P (.map members))
    (there : members.field? name = some value) : P value
  put {members : Members} (name : String) {value : Value} (h : P (.map members))
    (hvalue : P value) : P (.map (members.put (.text name) value))
  without {members : Members} (name : String) (h : P (.map members)) :
    P (.map (members.without (.text name)))

theorem isKept_isJson : IsKept fun value => value.isJson where
  member h there := isJson_of_field? h there
  put name _ h := isJson_put h name
  without name h := by
    obtain ⟨named, values⟩ := isJson_map.mp h
    refine isJson_map.mpr ⟨Members.isNamed_without named name, fun member hmem => ?_⟩
    exact values member (List.mem_filter.mp hmem).1

theorem isKept_isDefinite : IsKept fun value => value.isDefinite where
  member h there := by
    rw [isDefinite, membersDefinite_iff] at h
    exact (h _ (Members.mem_of_field? there)).2
  put name value h hvalue := by
    rw [isDefinite, membersDefinite_iff] at h ⊢
    intro member hmem
    rcases Members.mem_put_iff_or hmem with there | ⟨written, key | ⟨old, place⟩⟩
    · exact h member there
    · rw [written, key]
      exact ⟨rfl, hvalue⟩
    · rw [written]
      exact ⟨(h _ place).1, hvalue⟩
  without name h := by
    rw [isDefinite, membersDefinite_iff] at h ⊢
    exact fun member hmem => h member (List.mem_filter.mp hmem).1

end Value

namespace Rollout

/-! ### Templates and their labels -/

/-- The metadata of a template, empty if it has none. -/
def metadataIn (template : Value) : Members := (template.field "metadata").members

/-- The labels of a template, null if it has none. -/
def labelsIn (template : Value) : Value := (Value.map (metadataIn template)).field "labels"

/-- Whether something is absent or a mapping. -/
def isMapIfPresent (value : Option Value) : Bool := value.all Value.isMap

/-- A template: a mapping whose metadata is absent or a mapping, and so are the labels in it. -/
def isTemplate (template : Value) : Bool :=
  template.isMap && isMapIfPresent (template.members.field? "metadata") &&
    isMapIfPresent ((metadataIn template).field? "labels")

/-- Whether a template has labels, and none among them. -/
def hasEmptyLabels (template : Value) : Bool := (labelsIn template).isMap &&
  (labelsIn template).members.isEmpty

/-- A template with other labels. -/
def withLabels (labels : Members) (template : Value) : Value :=
  .map (template.members.put (.text "metadata")
    (.map ((metadataIn template).put (.text "labels") (.map labels))))

/-- A template with a given hash label, or with none. -/
def withHash (hash : Option Value) (template : Value) : Value :=
  match hash with
  | some hash => withLabels ((labelsIn template).members.put (.text hashLabel) hash) template
  | none =>
    if (labelsIn template).isMap then
      withLabels ((labelsIn template).members.without (.text hashLabel)) template
    else template

variable {template x y z : Value} {members metadata labels : Members}

/-- A template has labels, or it has none; its metadata may be absent, too. -/
inductive Shape : Value → Prop
  | bare {members : Members} (absent : members.field? "metadata" = none) : Shape (.map members)
  | unlabelled {members metadata : Members}
    (there : members.field? "metadata" = some (.map metadata))
    (absent : metadata.field? "labels" = none) : Shape (.map members)
  | labelled {members metadata labels : Members}
    (there : members.field? "metadata" = some (.map metadata))
    (has : metadata.field? "labels" = some (.map labels)) : Shape (.map members)

theorem metadataIn_map (members : Members) :
    metadataIn (.map members) = (Value.ofOption (members.field? "metadata")).members := rfl

theorem metadataIn_eq (there : members.field? "metadata" = some (.map metadata)) :
    metadataIn (.map members) = metadata := by
  rw [metadataIn_map, there]
  rfl

theorem metadataIn_of_absent (absent : members.field? "metadata" = none) :
    metadataIn (.map members) = [] := by
  rw [metadataIn_map, absent]
  rfl

theorem labelsIn_eq (there : members.field? "metadata" = some (.map metadata)) :
    labelsIn (.map members) = .ofOption (metadata.field? "labels") := by
  rw [labelsIn, metadataIn_eq there, Value.field, Value.members_map]

theorem labelsIn_of_absent (absent : members.field? "metadata" = none) :
    labelsIn (.map members) = .null := by
  rw [labelsIn, metadataIn_of_absent absent]
  rfl

theorem shape_of_isTemplate (h : isTemplate template) : Shape template := by
  rw [isTemplate, Bool.and_eq_true, Bool.and_eq_true] at h
  obtain ⟨⟨hmap, hmetadata⟩, hlabels⟩ := h
  cases template with
  | map members =>
    rw [Value.members_map] at hmetadata
    cases there : Members.field? members "metadata" with
    | none => exact .bare there
    | some value =>
      rw [there] at hmetadata
      cases value with
      | map metadata =>
        rw [metadataIn_eq there] at hlabels
        cases has : Members.field? metadata "labels" with
        | none => exact .unlabelled there has
        | some value =>
          rw [has] at hlabels
          cases value with
          | map labels => exact .labelled there has
          | _ => cases hlabels
      | _ => cases hmetadata
  | _ => cases hmap

@[simp] theorem metadataIn_withLabels (labels : Members) (template : Value) :
    metadataIn (withLabels labels template) =
      (metadataIn template).put (.text "labels") (.map labels) := by
  rw [withLabels, metadataIn_eq (Members.field?_put_self _ _ _)]

@[simp] theorem labelsIn_withLabels (labels : Members) (template : Value) :
    labelsIn (withLabels labels template) = .map labels := by
  rw [withLabels, labelsIn_eq (Members.field?_put_self _ _ _), Members.field?_put_self,
    Value.ofOption_some]

@[simp] theorem hasEmptyLabels_withLabels (labels : Members) (template : Value) :
    hasEmptyLabels (withLabels labels template) = labels.isEmpty := by
  rw [hasEmptyLabels, labelsIn_withLabels, Value.members_map, Value.isMap, Bool.true_and]

/-- Writing the labels that a template has changes nothing. -/
theorem withLabels_eq_self (there : members.field? "metadata" = some (.map metadata))
    (has : metadata.field? "labels" = some (.map labels)) :
    withLabels labels (.map members) = .map members := by
  rw [withLabels, metadataIn_eq there, Members.put_eq_self has, Value.members_map,
    Members.put_eq_self there]

/-! ### Normal forms -/

/-- Metadata with labels that have no hash label, and without labels if they are empty then. -/
def stripped (metadata labels : Members) : Members :=
  if (labels.without (.text hashLabel)).isEmpty then metadata.without (.text "labels")
  else metadata.put (.text "labels") (.map (labels.without (.text hashLabel)))

/-- A mapping without metadata if they are empty. -/
def withoutEmptyMetadata (members : Members) : Members :=
  match members.field? "metadata" with
  | some (.map []) => members.without (.text "metadata")
  | _ => members

theorem orEmpty_map (members : Members) : (Value.map members).orEmpty = .map members := by
  cases members <;> rfl

theorem normalTemplate_map {metadata labels : Value} {rest : Members}
    (hmetadata : (members.field? "metadata").getD .null = metadata)
    (hlabels : metadata.orEmpty.get "labels" = .ok labels)
    (hrest : withoutHash metadata.members labels = .ok rest) :
    normalTemplate (.map members) = .ok (withoutEmptyMetadata
      (if labels.isTruthy then members.put (.text "metadata") (.map rest) else members)) := by
  rw [normalTemplate, orEmpty_map]
  dsimp only
  rw [hmetadata, hlabels]
  change (withoutHash metadata.members labels >>= _) = _
  rw [hrest]
  change (match Members.field? _ "metadata" with
    | some (.map []) => Except.ok _
    | _ => Except.ok _) = _
  rw [withoutEmptyMetadata]
  split <;> rfl

/-- The normal form of a template that has labels. -/
theorem normalTemplate_of_labels (there : members.field? "metadata" = some (.map metadata))
    (has : metadata.field? "labels" = some (.map labels)) (present : labels ≠ []) :
    normalTemplate (.map members) = .ok (withoutEmptyMetadata
      (members.put (.text "metadata") (.map (stripped metadata labels)))) := by
  obtain ⟨label, rest, rfl⟩ := List.exists_cons_of_ne_nil present
  have hmetadata : (members.field? "metadata").getD .null = .map metadata := by
    rw [there, Option.getD_some]
  have hlabels : (Value.map metadata).orEmpty.get "labels" = .ok (.map (label :: rest)) := by
    rw [orEmpty_map, Value.get_map, has, Value.ofOption_some]
  have hrest : withoutHash metadata (.map (label :: rest)) =
      .ok (stripped metadata (label :: rest)) := by
    rw [withoutHash, stripped]
    exact if_neg Bool.false_ne_true
  exact normalTemplate_map hmetadata hlabels hrest

/-- The normal form of a template that has no labels. -/
theorem normalTemplate_of_no_labels (h : Shape (.map members))
    (absent : (labelsIn (.map members)).isTruthy = false) :
    normalTemplate (.map members) = .ok (withoutEmptyMetadata members) := by
  cases h with
  | bare gone =>
    have hmetadata : (members.field? "metadata").getD .null = .null := by
      rw [gone, Option.getD_none]
    exact normalTemplate_map hmetadata rfl rfl
  | @unlabelled _ metadata there gone =>
    have hmetadata : (members.field? "metadata").getD .null = .map metadata := by
      rw [there, Option.getD_some]
    have hlabels : (Value.map metadata).orEmpty.get "labels" = .ok .null := by
      rw [orEmpty_map, Value.get_map, gone, Value.ofOption_none]
    exact normalTemplate_map hmetadata hlabels rfl
  | @labelled _ metadata labels there has =>
    rw [labelsIn_eq there, has, Value.ofOption_some] at absent
    obtain rfl : labels = [] := by simpa using absent
    have hmetadata : (members.field? "metadata").getD .null = .map metadata := by
      rw [there, Option.getD_some]
    have hlabels : (Value.map metadata).orEmpty.get "labels" = .ok (.map []) := by
      rw [orEmpty_map, Value.get_map, has, Value.ofOption_some]
    exact normalTemplate_map hmetadata hlabels rfl

/-! ### Changes of the hash label -/

/-- The normal form of a template depends on its labels only as far as they are stripped. -/
theorem normalTemplate_withLabels (template : Value) (present : labels ≠ []) :
    normalTemplate (withLabels labels template) = .ok (withoutEmptyMetadata
      (template.members.put (.text "metadata")
        (.map (stripped (metadataIn template) labels)))) := by
  have there : Members.field? (template.members.put (.text "metadata")
      (.map ((metadataIn template).put (.text "labels") (.map labels)))) "metadata" =
      some (.map ((metadataIn template).put (.text "labels") (.map labels))) :=
    Members.field?_put_self _ _ _
  rw [withLabels, normalTemplate_of_labels there (Members.field?_put_self _ _ _) present,
    Members.put_put]
  rw [stripped, stripped, Members.without_put, Members.put_put]

theorem stripped_congr {others : Members}
    (same : others.without (.text hashLabel) = labels.without (.text hashLabel)) :
    stripped metadata others = stripped metadata labels := by
  rw [stripped, stripped, same]

/-- Taking out of labels the ones that only the hash label makes is leaving them out. -/
theorem stripped_of_no_labels (absent : metadata.field? "labels" = none)
    (only : labels.without (.text hashLabel) = []) : stripped metadata labels = metadata := by
  rw [stripped, only, if_pos List.isEmpty_nil, Members.without_eq_self absent]

/-- A template without labels has the normal form that it has with a hash label alone. -/
theorem normalTemplate_of_hash_alone (h : Shape template) (absent : labelsIn template = .null)
    (hash : Value) : normalTemplate (withLabels [(.text hashLabel, hash)] template) =
      normalTemplate template := by
  have only : Members.without [(.text hashLabel, hash)] (.text hashLabel) = [] := by
    simp [Members.without]
  rw [normalTemplate_withLabels template (List.cons_ne_nil _ _)]
  cases h with
  | @bare members gone =>
    rw [normalTemplate_of_no_labels (.bare gone) (by rw [absent]; rfl), metadataIn_of_absent gone,
      stripped_of_no_labels rfl only, Value.members_map]
    rw [withoutEmptyMetadata, Members.field?_put_self, withoutEmptyMetadata, gone]
    dsimp only
    rw [Members.without_put, Members.without_eq_self gone]
  | @unlabelled members metadata there gone =>
    rw [normalTemplate_of_no_labels (.unlabelled there gone) (by rw [absent]; rfl),
      metadataIn_eq there, stripped_of_no_labels gone only, Value.members_map,
      Members.put_eq_self there]
  | labelled there has =>
    rw [labelsIn_eq there, has] at absent
    cases absent

/-- Labels that are the same without the hash label, and of which neither are empty, make
templates with one normal form. -/
theorem normalTemplate_of_other_labels (there : members.field? "metadata" = some (.map metadata))
    (has : metadata.field? "labels" = some (.map labels)) (present : labels ≠ [])
    {others : Members} (left : others ≠ [])
    (same : others.without (.text hashLabel) = labels.without (.text hashLabel)) :
    normalTemplate (withLabels others (.map members)) = normalTemplate (.map members) := by
  rw [normalTemplate_withLabels _ left, metadataIn_eq there, Value.members_map,
    stripped_congr same, normalTemplate_of_labels there has present]

/-- The hash label is not seen in the normal form, unless labels are empty without it and are
there. -/
theorem normalTemplate_withHash (h : Shape template) {hash : Option Value}
    (same : hasEmptyLabels (withHash hash template) = hasEmptyLabels template) :
    normalTemplate (withHash hash template) = normalTemplate template := by
  have unlabelled (absent : labelsIn template = .null) :
      normalTemplate (withHash hash template) = normalTemplate template := by
    cases hash with
    | none => rw [withHash, absent]; rfl
    | some hash =>
      rw [withHash, absent]
      exact normalTemplate_of_hash_alone h absent hash
  cases h with
  | bare gone => exact unlabelled (labelsIn_of_absent gone)
  | unlabelled there gone => exact unlabelled (by rw [labelsIn_eq there, gone]; rfl)
  | @labelled members metadata labels there has =>
    have own : labelsIn (.map members) = .map labels := by
      rw [labelsIn_eq there, has, Value.ofOption_some]
    have empty : hasEmptyLabels (.map members) = labels.isEmpty := by
      rw [hasEmptyLabels, own, Value.members_map, Value.isMap, Bool.true_and]
    cases hash with
    | none =>
      have removed : withHash none (.map members) =
          withLabels (labels.without (.text hashLabel)) (.map members) := by
        rw [withHash, own]
        rfl
      rw [removed, hasEmptyLabels_withLabels, empty] at same
      rw [removed]
      by_cases present : labels = []
      · subst present
        exact congrArg normalTemplate (withLabels_eq_self there has)
      · have left : labels.without (.text hashLabel) ≠ [] := by
          intro gone
          rw [gone] at same
          exact present (List.isEmpty_iff.mp same.symm)
        exact normalTemplate_of_other_labels there has present left (Members.without_without _ _)
    | some hash =>
      have written : withHash (some hash) (.map members) =
          withLabels (labels.put (.text hashLabel) hash) (.map members) := by
        rw [withHash, own, Value.members_map]
      have left := Members.put_ne_nil labels (.text hashLabel) hash
      rw [written, hasEmptyLabels_withLabels, empty, List.isEmpty_eq_false_iff.mpr left] at same
      rw [written]
      exact normalTemplate_of_other_labels there has (List.isEmpty_eq_false_iff.mp same.symm) left
        (Members.without_put _ _ _)

/-! ### Comparing templates -/

/-- A template has a normal form, which has the properties that are kept. -/
theorem exists_normalTemplate {P : Value → Prop} (kept : Value.IsKept P) (h : Shape template)
    (own : P template) : ∃ members, normalTemplate template = .ok members ∧ P (.map members) := by
  have settled {members : Members} (h : P (.map members)) :
      P (.map (withoutEmptyMetadata members)) := by
    rw [withoutEmptyMetadata]
    split
    · exact kept.without "metadata" h
    · exact h
  have unlabelled {members : Members} (h : Shape (.map members)) (own : P (.map members))
      (absent : (labelsIn (.map members)).isTruthy = false) :
      ∃ normal, normalTemplate (.map members) = .ok normal ∧ P (.map normal) :=
    ⟨_, normalTemplate_of_no_labels h absent, settled own⟩
  cases h with
  | bare gone => exact unlabelled (.bare gone) own (by rw [labelsIn_of_absent gone]; rfl)
  | unlabelled there gone =>
    exact unlabelled (.unlabelled there gone) own (by rw [labelsIn_eq there, gone]; rfl)
  | @labelled members metadata labels there has =>
    by_cases present : labels = []
    · refine unlabelled (.labelled there has) own ?_
      rw [labelsIn_eq there, has, present]
      rfl
    · refine ⟨_, normalTemplate_of_labels there has present, settled (kept.put _ own ?_)⟩
      have hmetadata := kept.member own there
      have hlabels := kept.without hashLabel (kept.member hmetadata has)
      rw [stripped]
      split
      · exact kept.without "labels" hmetadata
      · exact kept.put "labels" hmetadata hlabels

theorem exists_sameTemplate (hx : Shape x) (hy : Shape y) : ∃ mx my,
    normalTemplate x = .ok mx ∧ normalTemplate y = .ok my ∧
      sameTemplate x y = .ok ((Value.map mx).equal false (.map my)) := by
  have trivially : Value.IsKept fun _ => True := ⟨fun _ _ => trivial, fun _ _ _ _ => trivial,
    fun _ _ => trivial⟩
  obtain ⟨mx, hmx, -⟩ := exists_normalTemplate trivially hx trivial
  obtain ⟨my, hmy, -⟩ := exists_normalTemplate trivially hy trivial
  refine ⟨mx, my, hmx, hmy, ?_⟩
  rw [sameTemplate, hmx, hmy]
  rfl

theorem sameTemplate_symm (hx : Shape x) (hy : Shape y) : sameTemplate x y = sameTemplate y x := by
  obtain ⟨mx, my, hmx, hmy, hxy⟩ := exists_sameTemplate hx hy
  have back : sameTemplate y x = .ok ((Value.map my).equal false (.map mx)) := by
    rw [sameTemplate, hmx, hmy]
    rfl
  rw [hxy, back]
  exact congrArg _ (Bool.eq_iff_iff.mpr ⟨Value.equal_symm, Value.equal_symm⟩)

theorem sameTemplate_trans (hx : Shape x) (hy : Shape y) (hz : Shape z)
    (hxy : sameTemplate x y = .ok true) (hyz : sameTemplate y z = .ok true) :
    sameTemplate x z = .ok true := by
  obtain ⟨mx, my, hmx, hmy, first⟩ := exists_sameTemplate hx hy
  obtain ⟨_, mz, hmy', hmz, second⟩ := exists_sameTemplate hy hz
  obtain rfl := Except.ok.inj (hmy.symm.trans hmy')
  have left := Except.ok.inj (first.symm.trans hxy)
  have right := Except.ok.inj (second.symm.trans hyz)
  rw [sameTemplate, hmx, hmz]
  exact congrArg Except.ok (Value.equal_trans left right)

/-- A template in which every number is a number is the same as itself. -/
theorem sameTemplate_self (hx : Shape x) (definite : x.isDefinite) :
    sameTemplate x x = .ok true := by
  obtain ⟨members, hmembers, kept⟩ := exists_normalTemplate Value.isKept_isDefinite hx definite
  rw [sameTemplate, hmembers]
  exact congrArg Except.ok (Value.equalWithin_self_of_isDefinite false kept)

/-! ### Labels that are empty -/

theorem hasEmptyLabels_iff : hasEmptyLabels (.map members) ↔ ∃ metadata : Members,
    members.field? "metadata" = some (.map metadata) ∧
      metadata.field? "labels" = some (.map []) := by
  constructor
  · intro h
    cases there : members.field? "metadata" with
    | none =>
      rw [hasEmptyLabels, labelsIn_of_absent there] at h
      cases h
    | some value =>
      cases value with
      | map metadata =>
        rw [hasEmptyLabels, labelsIn_eq there] at h
        refine ⟨metadata, rfl, ?_⟩
        cases has : Members.field? metadata "labels" with
        | none => rw [has] at h; cases h
        | some value =>
          rw [has] at h
          cases value with
          | map labels =>
            cases labels with
            | nil => rfl
            | cons label rest => cases h
          | _ => cases h
      | _ =>
        rw [hasEmptyLabels, labelsIn, metadataIn_map, there] at h
        cases h
  · rintro ⟨metadata, there, has⟩
    rw [hasEmptyLabels, labelsIn_eq there, has]
    rfl

/-- Empty labels are seen by comparing values. -/
theorem hasEmptyLabels_of_equal {xs ys : Members} (hx : (Value.map xs).isJson)
    (hy : (Value.map ys).isJson) (h : Value.equalWithin false (.map xs) (.map ys))
    (empty : hasEmptyLabels (.map xs)) : hasEmptyLabels (.map ys) := by
  obtain ⟨metadata, there, has⟩ := hasEmptyLabels_iff.mp empty
  have rel := (Value.equalWithin_map_iff (Value.isJson_map.mp hx).1 (Value.isJson_map.mp hy).1).mp h
    "metadata"
  rw [there] at rel
  cases other : ys.field? "metadata" with
  | none => rw [other] at rel; cases rel
  | some value =>
    rw [other] at rel
    obtain ⟨within⟩ := rel
    obtain ⟨own, rfl⟩ := Value.equalWithin_map_left within
    have named {members : Members} {part : Members} (json : (Value.map members).isJson)
        (found : members.field? "metadata" = some (.map part)) : part.isNamed :=
      (Value.isJson_map.mp (Value.isJson_of_field? json found)).1
    have inner := (Value.equalWithin_map_iff (named hx there) (named hy other)).mp within "labels"
    rw [has] at inner
    cases labels : own.field? "labels" with
    | none => rw [labels] at inner; cases inner
    | some value =>
      rw [labels] at inner
      obtain ⟨none⟩ := inner
      obtain ⟨left, rfl⟩ := Value.equalWithin_map_left none
      have length := ((Value.equalWithin_map false [] left).mp none).1
      obtain rfl := List.eq_nil_of_length_eq_zero length.symm
      exact hasEmptyLabels_iff.mpr ⟨own, other, labels⟩

theorem hasEmptyLabels_withoutEmptyMetadata (members : Members) :
    hasEmptyLabels (.map (withoutEmptyMetadata members)) = hasEmptyLabels (.map members) := by
  rw [withoutEmptyMetadata]
  split
  · rename_i there
    have gone : (members.without (.text "metadata")).field? "metadata" = none := by
      rw [Members.field?_without, if_pos rfl]
    rw [hasEmptyLabels, labelsIn_of_absent gone, hasEmptyLabels, labelsIn_eq there]
    rfl
  · rfl

/-- The normal form of a template has empty labels if the template has. -/
theorem hasEmptyLabels_normalTemplate (h : Shape template)
    (normal : normalTemplate template = .ok members) :
    hasEmptyLabels (.map members) = hasEmptyLabels template := by
  have unlabelled {own : Members} (h : Shape (.map own))
      (normal : normalTemplate (.map own) = .ok members)
      (absent : (labelsIn (.map own)).isTruthy = false) :
      hasEmptyLabels (.map members) = hasEmptyLabels (.map own) := by
    obtain rfl := Except.ok.inj (normal.symm.trans (normalTemplate_of_no_labels h absent))
    exact hasEmptyLabels_withoutEmptyMetadata own
  cases h with
  | bare gone => exact unlabelled (.bare gone) normal (by rw [labelsIn_of_absent gone]; rfl)
  | unlabelled there gone =>
    exact unlabelled (.unlabelled there gone) normal (by rw [labelsIn_eq there, gone]; rfl)
  | @labelled own metadata labels there has =>
    by_cases present : labels = []
    · refine unlabelled (.labelled there has) normal ?_
      rw [labelsIn_eq there, has, present]
      rfl
    · obtain rfl := Except.ok.inj (normal.symm.trans (normalTemplate_of_labels there has present))
      rw [hasEmptyLabels_withoutEmptyMetadata, Bool.eq_iff_iff, hasEmptyLabels_iff,
        hasEmptyLabels_iff]
      constructor
      · rintro ⟨left, found, empty⟩
        rw [Members.field?_put_self] at found
        obtain rfl := Value.map.inj (Option.some.inj found)
        rw [stripped] at empty
        split at empty
        · rw [Members.field?_without, if_pos rfl] at empty
          cases empty
        · rename_i some
          rw [Members.field?_put_self] at empty
          rw [Value.map.inj (Option.some.inj empty)] at some
          exact absurd rfl some
      · rintro ⟨own, found, empty⟩
        obtain rfl := Value.map.inj (Option.some.inj (there.symm.trans found))
        exact absurd (Value.map.inj (Option.some.inj (has.symm.trans empty))) present

/-- Of templates that are the same, both have empty labels or none has. -/
theorem hasEmptyLabels_eq_of_sameTemplate (hx : Shape x) (hy : Shape y) (jsonX : x.isJson)
    (jsonY : y.isJson) (same : sameTemplate x y = .ok true) :
    hasEmptyLabels x = hasEmptyLabels y := by
  obtain ⟨mx, hmx, keptX⟩ := exists_normalTemplate Value.isKept_isJson hx jsonX
  obtain ⟨my, hmy, keptY⟩ := exists_normalTemplate Value.isKept_isJson hy jsonY
  rw [sameTemplate, hmx, hmy] at same
  have equal := Value.equalWithin_of_equal (Except.ok.inj same)
  rw [← hasEmptyLabels_normalTemplate hx hmx, ← hasEmptyLabels_normalTemplate hy hmy,
    Bool.eq_iff_iff]
  exact ⟨hasEmptyLabels_of_equal keptX keptY equal,
    hasEmptyLabels_of_equal keptY keptX (Value.equalWithin_symm equal)⟩

/-- The comparison of templates is an equivalence. It does not change with the hash label of
either template, unless the labels of that template are empty before the change or after it, and
not both; and such templates are not the same. -/
theorem sameTemplate_ignores_hash (hx : isTemplate x) (hy : isTemplate y) (hz : isTemplate z)
    (definite : x.isDefinite) :
    (∃ same, sameTemplate x y = .ok same) ∧
    (∀ hash, hasEmptyLabels (withHash hash x) = hasEmptyLabels x →
      sameTemplate (withHash hash x) y = sameTemplate x y ∧
        sameTemplate y (withHash hash x) = sameTemplate y x) ∧
    (x.isJson → y.isJson → sameTemplate x y = .ok true → hasEmptyLabels x = hasEmptyLabels y) ∧
    sameTemplate x x = .ok true ∧ sameTemplate x y = sameTemplate y x ∧
    (sameTemplate x y = .ok true → sameTemplate y z = .ok true → sameTemplate x z = .ok true) := by
  have shapeX := shape_of_isTemplate hx
  have shapeY := shape_of_isTemplate hy
  have shapeZ := shape_of_isTemplate hz
  refine ⟨?_, fun hash same => ?_, hasEmptyLabels_eq_of_sameTemplate shapeX shapeY,
    sameTemplate_self shapeX definite, sameTemplate_symm shapeX shapeY,
    sameTemplate_trans shapeX shapeY shapeZ⟩
  · obtain ⟨mx, my, -, -, hxy⟩ := exists_sameTemplate shapeX shapeY
    exact ⟨_, hxy⟩
  · rw [sameTemplate, sameTemplate, sameTemplate, sameTemplate,
      normalTemplate_withHash shapeX same]
    exact ⟨rfl, rfl⟩

/-- The template of a web server with given labels. -/
def sampleTemplate (labels : List (String × String)) : Value := .map [
  (.text "metadata", .map [
    (.text "labels", .map (labels.map fun label => (.text label.1, .text label.2)))]),
  (.text "spec", .map [(.text "image", .text "nginx")])]

theorem sameTemplate_ignores_hash_web :
    withHash (some (.text "5d4f")) (sampleTemplate [("app", "web")]) =
      sampleTemplate [("app", "web"), (hashLabel, "5d4f")] ∧
    sameTemplate (sampleTemplate [("app", "web"), (hashLabel, "5d4f")])
      (sampleTemplate [("app", "web")]) = .ok true := by
  have added : withHash (some (.text "5d4f")) (sampleTemplate [("app", "web")]) =
      sampleTemplate [("app", "web"), (hashLabel, "5d4f")] := by decide +kernel
  have laws := sameTemplate_ignores_hash (x := sampleTemplate [("app", "web")])
    (y := sampleTemplate [("app", "web")]) (z := sampleTemplate []) (by decide +kernel)
    (by decide +kernel) (by decide +kernel) (by decide +kernel)
  refine ⟨added, ?_⟩
  rw [← added, (laws.2.1 (some (.text "5d4f")) (by decide +kernel)).1]
  exact laws.2.2.2.1

/-- Where the hash label is the only one, taking it out of the labels makes another template. -/
theorem emptied_labels_are_seen : isTemplate (sampleTemplate [(hashLabel, "5d4f")]) ∧
    withHash none (sampleTemplate [(hashLabel, "5d4f")]) = sampleTemplate [] ∧
    sameTemplate (sampleTemplate [(hashLabel, "5d4f")])
      (sampleTemplate [(hashLabel, "5d4f")]) = .ok true ∧
    sameTemplate (sampleTemplate []) (sampleTemplate [(hashLabel, "5d4f")]) = .ok false := by
  exact ⟨by decide +kernel, by decide +kernel, rfl, rfl⟩

end Rollout

end Reconciler

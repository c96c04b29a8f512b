import Reconciler.Proofs.Value.Form
import Reconciler.Proofs.Value.Names
import Reconciler.Resource.Selection

/-!
# Selectors of well-formed objects

An object with a text kind and a text version is of a known kind or of none. If its selector has
the form that its kind's rule reads, then the labels of its pods are known, and they can be
written as text for the server.
-/

namespace Reconciler

open Form

namespace Value

theorem isJson_of_get {value member : Value} {name : String} (json : value.isJson)
    (h : value.get name = .ok member) : member.isJson := by
  cases value with
  | map members =>
    cases hfield : Members.field? members name with
    | none =>
      rw [get_map, hfield] at h
      cases h
      rfl
    | some found =>
      rw [get_map, hfield] at h
      cases h
      exact isJson_of_field? json hfield
  | _ => cases h

theorem isJson_orEmpty {value : Value} (json : value.isJson) : value.orEmpty.isJson := by
  unfold orEmpty orElse
  split
  · exact json
  · rfl

end Value

theorem Gives.json {value : Value} {name : String} {P : Value → Prop}
    (h : Gives (value.get name) P) (json : value.isJson) :
    Gives (value.get name) fun member => P member ∧ member.isJson := by
  obtain ⟨member, hmember, hP⟩ := h
  exact ⟨member, hmember, hP, Value.isJson_of_get json hmember⟩

namespace Schema

/-- What the selector of an object has to be by the rule of its kind. -/
def SelectorRule.fields : SelectorRule → List (String × Form)
  | .matchLabels => [("matchLabels", record [])]
  | .plainLabels => []

/-- An object that manages pods. -/
def SelectorRule.form (rule : SelectorRule) : Form := record [
  ("metadata", record []),
  ("spec", record [("selector", record rule.fields)])]

variable {object : Value}

theorem gives_toMembers {fields : List (String × Form)} {labels : Value}
    (h : (record fields).fits labels) (json : labels.isJson) :
    Gives (toMembers labels.orEmpty) fun members => Members.isNamed members := by
  have json := Value.isJson_orEmpty json
  obtain ⟨members, hmembers, -⟩ := exists_orEmpty h
  rw [hmembers] at json ⊢
  exact gives_ok (Value.isJson_map.mp json).1

theorem gives_labels (rule : SelectorRule) (h : rule.form.fits object)
    (present : object.isNull = false) (json : object.isJson) :
    Gives (rule.labels object) fun labels => Members.isNamed labels := by
  have selector : Gives (selectorField object) fun selector =>
      ∃ value, selector = value.orEmpty ∧ (record rule.fields).fits value ∧ value.isJson := by
    refine ((gives_get h present "spec" rfl).json json).bind fun spec ⟨hspec, json⟩ => ?_
    refine ((gives_orEmpty_get hspec "selector" rfl).json
      (Value.isJson_orEmpty json)).bind fun value ⟨hvalue, json⟩ => ?_
    exact gives_ok ⟨value, rfl, hvalue, json⟩
  cases rule with
  | matchLabels =>
    refine selector.bind fun _ ⟨value, hselector, hvalue, json⟩ => ?_
    rw [hselector]
    refine ((gives_orEmpty_get hvalue "matchLabels" rfl).json
      (Value.isJson_orEmpty json)).bind fun labels ⟨hlabels, json⟩ => ?_
    exact gives_toMembers hlabels json
  | plainLabels =>
    refine selector.bind fun _ ⟨value, hselector, hvalue, json⟩ => ?_
    rw [hselector]
    exact gives_toMembers hvalue json

/-- Labels whose keys are text and differ can be put in order, whatever their values are. -/
theorem gives_selectorText {labels : Members} (named : labels.isNamed) :
    Gives (selectorText labels) fun _ => True := by
  have comparable : Value.comparable labelLess? labels := by
    induction labels with
    | nil => rfl
    | cons label rest ih =>
      obtain ⟨key, value⟩ := label
      obtain ⟨name, rfl, fresh, hrest⟩ := Members.isNamed_cons.mp named
      rw [Value.comparable, ih hrest, Bool.and_true, List.all_eq_true]
      intro other hmem
      obtain ⟨own, held, rfl, found⟩ := Members.exists_name_of_mem hrest hmem
      have apart : (own == name) = false := by
        refine beq_eq_false_iff_ne.mpr ?_
        rintro rfl
        rw [fresh] at found
        cases found
      rw [labelLess?, Value.listLess?]
      simp [Value.equal, apart, Value.less?, Value.scalarLess?]
  rw [selectorText, Value.sortBy?, if_pos comparable]
  exact gives_ok trivial

/-! ### Kinds -/

/-- A kind that is looked up is one of the registry, or unsupported. -/
theorem lookup_cases {version kind : Value} {info : KindInfo} (h : lookup version kind = .ok info) :
    info = .unsupported ∨ info ∈ registry ∧ kind = .text info.kind := by
  unfold lookup at h
  split at h
  · obtain ⟨group, -, h⟩ := bind_eq_ok.mp h
    split at h
    · rename_i name _ _
      cases h
      unfold lookupKind
      cases hfind : registry.find? fun info => info.group == group && info.kind == name with
      | none => exact .inl rfl
      | some info =>
        have same := List.find?_some hfind
        simp only [Bool.and_eq_true, beq_iff_eq] at same
        exact .inr ⟨List.mem_of_find?_eq_some hfind, congrArg Value.text same.2.symm⟩
    · split at h <;> cases h
      exact .inl rfl
  · cases h
    exact .inl rfl

theorem gives_lookup (version kind : String) :
    Gives (lookup (.text version) (.text kind)) fun _ => True := by
  have group : Gives (normalizeGroup (.text version) (.text kind)) fun _ => True := by
    unfold normalizeGroup splitVersion
    cases hempty : version.isEmpty <;> simp only [Value.orElse, Value.isTruthy_text, hempty] <;>
      exact gives_ok trivial
  unfold lookup
  split
  · exact group.bind fun group _ => gives_ok trivial
  · exact gives_ok trivial

end Schema

/-- Whether the kind and the version of a reference are text. -/
def Ref.isTyped (ref : Ref) : Bool := ref.kind.isText && ref.apiVersion.isText

theorem Ref.gives_info {ref : Ref} (typed : ref.isTyped) : Gives ref.info fun info =>
    info = .unsupported ∨ info ∈ Schema.registry ∧ ref.kind = .text info.kind := by
  rw [isTyped, Bool.and_eq_true, Value.isText_iff, Value.isText_iff] at typed
  obtain ⟨⟨kind, hkind⟩, version, hversion⟩ := typed
  obtain ⟨found, hfound, -⟩ := Schema.gives_lookup version kind
  rw [← hkind, ← hversion] at hfound
  exact ⟨found, hfound, Schema.lookup_cases hfound⟩

end Reconciler

import Reconciler.Proofs.Value.Decidable
import Reconciler.Proofs.Value.Form
import Reconciler.Proofs.Value.Json
import Reconciler.Watch.Milestone

/-!
# What an event decides

Whether an event decides a watch, and how, follows from its type and from what its object says:
the conditions of a job, the phase of a pod. A verdict says so without going through the object
step by step. Main statements: an event that is well-formed is recorded, and the milestones of
both watches decide well-formed events by their verdicts.
-/

namespace Reconciler

open Form

namespace Form

variable {fields sub : List (String × Form)} {value : Value}

theorem nested_eq_field (h : (record fields).fits value) (present : value.isNull = false)
    (outer : String) (houter : fields.lookup outer = some (record sub)) (inner : String) :
    Readiness.nested value outer inner = .ok ((value.field outer).field inner) := by
  rw [Readiness.nested, get_eq_field h present]
  exact orEmpty_get_eq_field (fits_field h outer houter) inner

end Form

/-- A reference that can be watched: it has a kind and a name, and may have a namespace and a
body with metadata. -/
structure Ref.IsWatchable (ref : Ref) : Prop where
  kind : ref.kind.isText
  name : ref.name.isText
  space : text.fits ref.space
  present : ref.body.isNull = false
  fits : (record [("metadata", record [])]).fits ref.body

/-- The version that is known of the object of a reference, null if none is. -/
def Ref.versionKnown (ref : Ref) : Value := (ref.body.field "metadata").field "resourceVersion"

theorem Ref.IsWatchable.resourceVersion_eq {ref : Ref} (watchable : ref.IsWatchable) :
    ref.resourceVersion = .ok ref.versionKnown := by
  rw [resourceVersion, get_eq_field watchable.fits watchable.present]
  exact orEmpty_get_eq_field (fits_field watchable.fits "metadata" rfl) "resourceVersion"

namespace Watch

/-! ### Well-formed events -/

/-- What the object of an event must be like: its metadata name it by texts, and its status has
a list of conditions, all of which may be missing. -/
def eventForm : Form := record [
  ("metadata", record [("name", text), ("namespace", text)]),
  ("status", record [("conditions", list (record []))])]

/-- A delivery of one of the five types with the object that it is about. -/
structure IsWellFormed (type object : Value) : Prop where
  known : ∃ named : EventType, type = .text named.name
  present : object.isNull = false
  fits : eventForm.fits object
  keyed : object.members.all fun member => member.1.isText

variable {ref : Ref} {type object : Value} {event : Event}

theorem textMembers?_eq {members : Members} (h : members.all fun member => member.1.isText) :
    Event.textMembers? members = some members := by
  induction members with
  | nil => rfl
  | cons member rest ih =>
    obtain ⟨key, value⟩ := member
    rw [List.all_cons, Bool.and_eq_true, Value.isText_iff] at h
    obtain ⟨⟨name, rfl⟩, h⟩ := h
    rw [Event.textMembers?, ih h]
    rfl

/-- What a text gives way to, if it is empty or missing, is a text again. -/
theorem exists_orElse_text {own other : Value} (h : text.fits own) (hother : other.isText) :
    ∃ name, own.orElse other = .text name := by
  obtain ⟨name, rfl⟩ := Value.isText_iff.mp hother
  obtain rfl | ⟨first, rfl⟩ := text_cases h
  · exact ⟨name, rfl⟩
  · rw [Value.orElse]
    split
    · exact ⟨first, rfl⟩
    · exact ⟨name, rfl⟩

theorem fits_orElse {own other : Value} (h : text.fits own) (hother : text.fits other) :
    text.fits (own.orElse other) := by
  rw [Value.orElse]
  split
  · exact h
  · exact hother

/-- A well-formed event is recorded with its type and its object. -/
theorem exists_event (watchable : ref.IsWatchable) (h : IsWellFormed type object)
    (delivery : Cluster.Delivery) : ∃ event, Event.of ref type object delivery = .ok event ∧
      type = .text event.type.name ∧ object = .map event.object := by
  obtain ⟨named, rfl⟩ := h.known
  obtain ⟨kind, hkind⟩ := Value.isText_iff.mp watchable.kind
  have metadata := fits_field h.fits "metadata" rfl
  have delivered : Event.delivered object delivery = .ok object := by
    cases delivery with
    | raw => rw [Event.delivered, h.present]; rfl
    | wrapped => rfl
    | bare => rfl
  obtain ⟨name, hname⟩ := exists_orElse_text
    (fits_field (fits_orEmpty metadata) "name" rfl) watchable.name
  have space := fits_orElse (fits_field (fits_orEmpty metadata) "namespace" rfl) watchable.space
  obtain ⟨place, hplace⟩ : ∃ place, ((object.field "metadata").orEmpty.field
      "namespace" |>.orElse ref.space).asOptionalText? = some place := by
    obtain heq | ⟨place, heq⟩ := text_cases space
    · exact ⟨none, by rw [heq]; rfl⟩
    · exact ⟨some place, by rw [heq]; rfl⟩
  obtain ⟨members, rfl, -⟩ := exists_map_of_record h.fits h.present
  have recorded : Event.record? ref (.text named.name) (.map members)
      ((Value.map members).field "metadata").orEmpty =
        some ⟨named, kind, name, place, members⟩ := by
    rw [Event.record?, EventType.ofValue?_name, hkind]
    simp only [Value.asText?_text, Option.bind_eq_bind, Option.bind_some]
    rw [← Value.field, ← Value.field, hname, hplace, textMembers?_eq h.keyed]
    rfl
  refine ⟨⟨named, kind, name, place, members⟩, ?_, rfl, rfl⟩
  refine bind_eq_ok.mpr ⟨_, delivered, bind_eq_ok.mpr ⟨_, Value.get_map _ _, ?_⟩⟩
  refine bind_eq_ok.mpr ⟨_, orEmpty_get_eq_field metadata "name", ?_⟩
  rw [Value.field, Value.members_map] at recorded
  rw [recorded]
  rfl

/-! ### Verdicts -/

/-- How an event decides a watch, if it does: the watch ends with it, or it fails. -/
abbrev Verdict := Event → Option (Except Failure Unit)

namespace Verdict

/-- What a milestone answers to an event with a verdict: whether the watch ends with it. -/
def answer : Option (Except Failure Unit) → Except Failure Bool
  | none => .ok false
  | some result => result.map fun _ => true

/-- A milestone decides well-formed events by a verdict. -/
def Rules (verdict : Verdict) (milestone : Milestone) : Prop :=
  ∀ event : Event, eventForm.fits (.map event.object) → milestone event = answer (verdict event)

/-- The conditions of the object of an event. -/
def conditionsOf (event : Event) : List Value :=
  (((Value.map event.object).field "status").field "conditions").items

/-- Whether a condition holds and says that a job is complete or has failed. -/
def isFinal (condition : Value) : Bool :=
  condition.field "status" = .text "True" ∧
    (condition.field "type" = .text "Complete" ∨ condition.field "type" = .text "Failed")

/-- The first final condition decides whether a job has come to its end or has failed. -/
def ofConditions (event : Event) (conditions : List Value) : Option (Except Failure Unit) :=
  (conditions.find? isFinal).map fun condition =>
    if condition.field "type" = .text "Complete" then .ok ()
    else .error (jobFailure event (condition.field "reason"))

/-- An object is there, or is gone. A job that is there must also have come to its end. -/
def deployed (ref : Ref) : Verdict := fun event =>
  match event.type with
  | .added | .modified =>
    if ref.kind = .text "Job" then ofConditions event (conditionsOf event) else some (.ok ())
  | .deleted => some (.ok ())
  | .error | .bookmark => none

/-- The phase of the object of an event. -/
def phaseOf (event : Event) : Value := ((Value.map event.object).field "status").field "phase"

/-- A pod is gone, or it has succeeded or failed. -/
def podFinished (ref : Ref) : Verdict := fun event =>
  if event.type = .deleted then some (.error (.about ref .podGone))
  else if phaseOf event = .text "Succeeded" ∨ phaseOf event = .text "Failed" then some (.ok ())
  else none

end Verdict

theorem equal_text (value : Value) (name : String) :
    value.equal false (.text name) = decide (value = .text name) := by
  rw [Bool.eq_iff_iff, decide_eq_true_iff]
  constructor
  · exact Value.eq_text_of_sameKey
  · rintro rfl
    exact (Value.sameKey_text_left name _).mpr rfl

theorem jobVerdict_cons {condition : Value} (present : condition.isNull = false)
    (fits : (record []).fits condition) (rest : List Value) :
    jobVerdict event (condition :: rest) =
      if condition.field "status" = .text "True" then
        if condition.field "type" = .text "Complete" then .ok true
        else if condition.field "type" = .text "Failed" then
          .error (jobFailure event (condition.field "reason"))
        else jobVerdict event rest
      else jobVerdict event rest := by
  rw [jobVerdict, get_eq_field fits present, get_eq_field fits present,
    get_eq_field fits present]
  simp only [liftFault_ok, equal_text, decide_eq_true_iff, bind, Except.bind]
  rfl

/-- Going through the conditions finds the first final one. -/
theorem jobVerdict_eq {conditions : List Value}
    (h : ∀ condition ∈ conditions, condition.isNull = false ∧ (record []).fits condition) :
    jobVerdict event conditions = Verdict.answer (Verdict.ofConditions event conditions) := by
  induction conditions with
  | nil => rfl
  | cons condition rest ih =>
    obtain ⟨⟨present, fits⟩, others⟩ := List.forall_mem_cons.mp h
    rw [jobVerdict_cons present fits, ih others, Verdict.ofConditions, Verdict.ofConditions,
      List.find?_cons]
    by_cases holds : condition.field "status" = .text "True"
    · by_cases complete : condition.field "type" = .text "Complete"
      · simp [Verdict.isFinal, Verdict.answer, holds, complete, Except.map]
      · by_cases failed : condition.field "type" = .text "Failed"
        · simp [Verdict.isFinal, Verdict.answer, holds, failed, Except.map]
        · simp [Verdict.isFinal, holds, complete, failed]
    · simp [Verdict.isFinal, holds]

/-- A job is judged by the conditions of its object. -/
theorem jobComplete_eq (h : eventForm.fits (.map event.object)) : jobComplete event =
    Verdict.answer (Verdict.ofConditions event (Verdict.conditionsOf event)) := by
  have conditions := fits_field (fits_field h "status" rfl) "conditions" rfl
  obtain ⟨items, found, fits⟩ := gives_parts conditions
  obtain rfl := Except.ok.inj ((parts_eq_items conditions).symm.trans found)
  rw [jobComplete, nested_eq_field h rfl "status" rfl]
  refine Eq.trans ?_ (jobVerdict_eq fits)
  simp only [liftFault_ok, bind, Except.bind, found]
  rfl

theorem rules_deployed (ref : Ref) : (Verdict.deployed ref).Rules (deployed ref) := by
  intro event h
  rw [deployed, Verdict.deployed, equal_text]
  cases event.type with
  | added | modified =>
    by_cases isJob : ref.kind = .text "Job"
    · simp only [isJob, decide_true, if_true, jobComplete_eq h]
    · simp only [isJob, decide_false, Bool.false_eq_true, if_false]
      rfl
  | deleted => rfl
  | error => rfl
  | bookmark => rfl

/-- The final phases are known by their names. -/
theorem isFinal_ofValue (phase : Value) : (PodPhase.ofValue phase).isFinal =
    decide (phase = .text "Succeeded" ∨ phase = .text "Failed") := by
  cases phase with
  | text name =>
    rw [Bool.eq_iff_iff, decide_eq_true_iff, Value.text.injEq, Value.text.injEq, PodPhase.ofValue]
    constructor
    · intro final
      cases hfind : PodPhase.all.find? fun known => known.name == name with
      | none =>
        rw [hfind] at final
        cases final
      | some known =>
        rw [hfind] at final
        have named : known.name = name := by simpa using List.find?_some hfind
        cases known with
        | succeeded => exact .inl named.symm
        | failed => exact .inr named.symm
        | pending | running | unknown => cases final
    · rintro (rfl | rfl) <;> rfl
  | _ => simp [PodPhase.ofValue, PodPhase.isFinal]

theorem rules_podFinished (ref : Ref) : (Verdict.podFinished ref).Rules (podFinished ref) := by
  intro event h
  rw [podFinished, Verdict.podFinished, nested_eq_field h rfl "status" rfl, liftFault_ok]
  have judged : Except.ok (PodPhase.ofValue (Verdict.phaseOf event)).isFinal = Verdict.answer
      (if Verdict.phaseOf event = .text "Succeeded" ∨ Verdict.phaseOf event = .text "Failed" then
        some (.ok ()) else none) := by
    rw [isFinal_ofValue]
    split
    · rename_i final
      rw [decide_eq_true final]
      rfl
    · rename_i other
      rw [decide_eq_false other]
      rfl
  cases event.type with
  | deleted => rfl
  | added | modified | error | bookmark => exact judged

end Watch

end Reconciler

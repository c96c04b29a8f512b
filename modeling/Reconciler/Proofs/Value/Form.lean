import Reconciler.Proofs.Value.Json
import Reconciler.Value.Parts
import Reconciler.Value.Portable

/-!
# Forms of values

A form says what a value must be for the rules that read it: a mapping with members of given
forms, a list of items of a form, text, a number. What is not there is null, and null has every
form, so a form never says that a member must be present. Main statement: reading a member of
a value that has the form of a mapping succeeds, and gives a value of the member's form.
-/

namespace Reconciler

/-- What values may stand at a place. -/
structure Form where
  fits : Value → Bool
  fits_null : fits .null = true

namespace Form

/-- Text. -/
def text : Form where
  fits
    | .null | .text _ => true
    | _ => false
  fits_null := rfl

/-- A whole number. -/
def whole : Form where
  fits
    | .null | .int _ => true
    | _ => false
  fits_null := rfl

/-- A list of items of a form, all of which are there. -/
def list (item : Form) : Form where
  fits
    | .null => true
    | .list items => items.all fun part => !part.isNull && item.fits part
    | _ => false
  fits_null := rfl

/-- A mapping with members of given forms at given names, and any other members. -/
def record (fields : List (String × Form)) : Form where
  fits
    | .null => true
    | .map members => fields.all fun field =>
      field.2.fits (Value.ofOption (Members.field? members field.1))
    | _ => false
  fits_null := rfl

end Form

/-- The items of a list, and none for any other value. -/
def Value.items : Value → List Value
  | .list items => items
  | _ => []

/-- There is a result, and it has a property. -/
def Gives {ε : Type} (result : Except ε α) (P : α → Prop) : Prop := ∃ a, result = .ok a ∧ P a

section

variable {ε : Type} {result : Except ε α} {P : α → Prop}

theorem gives_ok {a : α} (h : P a) : Gives (.ok a : Except ε α) P := ⟨a, rfl, h⟩

theorem Gives.bind {next : α → Except ε β} {Q : β → Prop} (h : Gives result P)
    (hnext : ∀ a, P a → Gives (next a) Q) : Gives (result >>= next) Q := by
  obtain ⟨a, rfl, ha⟩ := h
  exact hnext a ha

theorem Gives.mono {Q : α → Prop} (h : Gives result P) (hQ : ∀ a, P a → Q a) :
    Gives result Q := by
  obtain ⟨a, rfl, ha⟩ := h
  exact ⟨a, rfl, hQ a ha⟩

end

namespace Form

variable {fields : List (String × Form)} {value : Value} {form : Form}

theorem exists_map_of_record (h : (record fields).fits value) (present : value.isNull = false) :
    ∃ members, value = .map members ∧ ∀ field ∈ fields,
      field.2.fits (Value.ofOption (Members.field? members field.1)) := by
  cases value with
  | null => cases present
  | map members => exact ⟨members, rfl, List.all_eq_true.mp h⟩
  | _ => cases h

theorem exists_orEmpty (h : (record fields).fits value) : ∃ members,
    value.orEmpty = .map members ∧ ∀ field ∈ fields,
      field.2.fits (Value.ofOption (Members.field? members field.1)) := by
  cases hnull : value.isNull with
  | true =>
    cases value with
    | null => exact ⟨[], rfl, fun field _ => field.2.fits_null⟩
    | _ => cases hnull
  | false =>
    obtain ⟨members, rfl, hfields⟩ := exists_map_of_record h hnull
    cases members with
    | nil => exact ⟨[], rfl, hfields⟩
    | cons member rest => exact ⟨member :: rest, rfl, hfields⟩

/-- What stands in the place of an object that may be missing is an object of the same form. -/
theorem fits_orEmpty (h : (record fields).fits value) : (record fields).fits value.orEmpty := by
  obtain ⟨members, hmembers, hfields⟩ := exists_orEmpty h
  rw [hmembers]
  exact List.all_eq_true.mpr hfields

theorem isNull_orEmpty (h : (record fields).fits value) : value.orEmpty.isNull = false := by
  obtain ⟨members, hmembers, -⟩ := exists_orEmpty h
  rw [hmembers]
  rfl

/-- A member of an object that is there has the form of its name. -/
theorem gives_get (h : (record fields).fits value) (present : value.isNull = false)
    (name : String) (hname : fields.lookup name = some form) :
    Gives (value.get name) (form.fits ·) := by
  obtain ⟨members, rfl, hfields⟩ := exists_map_of_record h present
  obtain ⟨front, back, rfl, -⟩ := List.lookup_eq_some_iff.mp hname
  exact ⟨_, Value.get_map members name, hfields (name, form) (by simp)⟩

theorem gives_get_any (h : (record fields).fits value) (present : value.isNull = false)
    (name : String) : Gives (value.get name) fun _ => True := by
  obtain ⟨members, rfl, -⟩ := exists_map_of_record h present
  exact ⟨_, Value.get_map members name, trivial⟩

/-- The same, if the object may be missing. -/
theorem gives_orEmpty_get (h : (record fields).fits value) (name : String)
    (hname : fields.lookup name = some form) : Gives (value.orEmpty.get name) (form.fits ·) :=
  gives_get (fits_orEmpty h) (isNull_orEmpty h) name hname

theorem gives_orEmpty_get_any (h : (record fields).fits value) (name : String) :
    Gives (value.orEmpty.get name) fun _ => True :=
  gives_get_any (fits_orEmpty h) (isNull_orEmpty h) name

/-- A list has items of its form. -/
theorem gives_parts (h : (list form).fits value) : Gives (value.orElse (.list [])).parts
    fun items => ∀ item ∈ items, item.isNull = false ∧ form.fits item := by
  cases value with
  | null => exact ⟨[], rfl, nofun⟩
  | list items =>
    refine ⟨items, ?_, fun item hmem => ?_⟩
    · cases items <;> rfl
    · simpa using List.all_eq_true.mp h item hmem
  | _ => cases h

theorem get_eq_field (h : (record fields).fits value) (present : value.isNull = false)
    (name : String) : value.get name = .ok (value.field name) := by
  obtain ⟨members, rfl, -⟩ := exists_map_of_record h present
  rfl

theorem orEmpty_get_eq_field (h : (record fields).fits value) (name : String) :
    value.orEmpty.get name = .ok (value.field name) := by
  cases value with
  | null => rfl
  | map members => cases members <;> rfl
  | _ => cases h

theorem fits_field (h : (record fields).fits value) (name : String)
    (hname : fields.lookup name = some form) : form.fits (value.field name) := by
  obtain ⟨front, back, rfl, -⟩ := List.lookup_eq_some_iff.mp hname
  cases value with
  | null => exact form.fits_null
  | map members => exact List.all_eq_true.mp h (name, form) (by simp)
  | _ => cases h

theorem parts_eq_items (h : (list form).fits value) :
    (value.orElse (.list [])).parts = .ok value.items := by
  cases value with
  | null => rfl
  | list items => cases items <;> rfl
  | _ => cases h

theorem text_cases (h : text.fits value) : value = .null ∨ ∃ name, value = .text name := by
  cases value with
  | null => exact .inl rfl
  | text name => exact .inr ⟨name, rfl⟩
  | _ => cases h

theorem whole_cases (h : whole.fits value) : value = .null ∨ ∃ number, value = .int number := by
  cases value with
  | null => exact .inl rfl
  | int number => exact .inr ⟨number, rfl⟩
  | _ => cases h

end Form

/-! ### JSON values as the server sends them -/

namespace Value

theorem portableItems_eq_map (items : List Value) : portableItems items = items.map portable := by
  induction items with
  | nil => rw [portableItems, List.map_nil]
  | cons item rest ih => rw [portableItems, ih, List.map_cons]

theorem portableMembers_eq_map (members : Members) :
    portableMembers members = members.map fun member => (member.1, member.2.portable) := by
  induction members with
  | nil => rw [portableMembers, List.map_nil]
  | cons member rest ih => rw [portableMembers, ih, List.map_cons]

theorem anySet_eq_any (items : List Value) : anySet items = items.any hasSet := by
  induction items with
  | nil => rw [anySet, List.any_nil]
  | cons item rest ih => rw [anySet, ih, List.any_cons]

theorem anySetIn_eq_any (members : Members) :
    anySetIn members = members.any fun member => member.2.hasSet := by
  induction members with
  | nil => rw [anySetIn, List.any_nil]
  | cons member rest ih => rw [anySetIn, ih, List.any_cons]

/-- A JSON value is sent as it is. -/
theorem portable_of_isJson {value : Value} (h : value.isJson) : value.portable = value := by
  induction value using Value.induction with
  | leaf value hleaf =>
    cases value with
    | date => simp [isJson] at h
    | moment => simp [isJson] at h
    | list | tuple | set | map => cases hleaf
    | _ => simp [portable]
  | list items ih =>
    have same : items.map portable = items := by
      refine (List.map_congr_left ?_).trans (List.map_id items)
      intro item hmem
      exact ih item hmem (isJson_list.mp h item hmem)
    rw [portable, portableItems_eq_map, same]
  | tuple items => exact (not_isJson_tuple h).elim
  | set items => exact (not_isJson_set h).elim
  | map members ih =>
    have same : members.map (fun member => (member.1, member.2.portable)) = members := by
      refine (List.map_congr_left ?_).trans (List.map_id members)
      intro member hmem
      rw [(ih member hmem).2 ((isJson_map.mp h).2 member hmem), id_eq]
    rw [portable, portableMembers_eq_map, same]

theorem hasSet_of_isJson {value : Value} (h : value.isJson) : value.hasSet = false := by
  induction value using Value.induction with
  | leaf value hleaf =>
    cases value with
    | list | tuple | set | map => cases hleaf
    | _ => simp [hasSet]
  | list items ih =>
    rw [hasSet, anySet_eq_any, List.any_eq_false]
    intro item hmem
    rw [ih item hmem (isJson_list.mp h item hmem)]
    exact Bool.false_ne_true
  | tuple items => exact (not_isJson_tuple h).elim
  | set items => exact (not_isJson_set h).elim
  | map members ih =>
    rw [hasSet, anySetIn_eq_any, List.any_eq_false]
    intro member hmem
    rw [(ih member hmem).2 ((isJson_map.mp h).2 member hmem)]
    exact Bool.false_ne_true

end Value

end Reconciler

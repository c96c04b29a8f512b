import Reconciler.Proofs.Value.Equality

/-!
# Values of JSON documents

A JSON document has mappings with text keys, each key at most once, and lists, text, truth
values, nulls and numbers; the number that is no number is left out. On such values equality
is reflexive, and it does not depend on whether a shared part equals itself.

Members with text keys are read and written by name. The lemmas here say what a read sees
after a write, so that no proof about mappings has to open these operations.
-/

namespace Reconciler

namespace Value

/-- Whether a value is text. -/
def isText : Value → Bool
  | .text _ => true
  | _ => false

theorem isText_iff {value : Value} : value.isText ↔ ∃ name, value = .text name := by
  cases value <;> simp [isText]

theorem sameKey_text_left (name : String) (key : Value) :
    sameKey (.text name) key = true ↔ key = .text name := by
  rw [sameKey, equal, equalWithin_of_isLeaf false rfl, scalarEqual_iff]
  · constructor
    · intro h
      cases h with
      | text => rfl
      | number h _ => simp [rational?] at h
    · rintro rfl
      exact .text name
  · simp

theorem eq_text_of_sameKey {key : Value} {name : String} (h : sameKey key (.text name) = true) :
    key = .text name := by
  have within := equalWithin_of_equal h
  rw [equalWithin_of_isLeaf_right false key rfl, scalarEqual_iff] at within
  cases within with
  | text => rfl
  | number _ h => simp [rational?] at h

end Value

/-! ### Members with text keys -/

namespace Members

/-- Whether all keys of a mapping are text and no two are the same. -/
def isNamed : Members → Bool
  | [] => true
  | (key, _) :: rest => key.isText && !Members.has rest key && isNamed rest

@[simp] theorem field?_nil (name : String) : field? [] name = none := rfl

theorem field?_cons_of_ne {key : Value} {name : String} (h : key ≠ .text name) (value : Value)
    (rest : Members) : field? ((key, value) :: rest) name = field? rest name := by
  rw [field?, at?_cons, if_neg (mt (Value.sameKey_text_left name key).mp h), field?]

@[simp] theorem field?_cons_self (name : String) (value : Value) (rest : Members) :
    field? ((.text name, value) :: rest) name = some value := by
  rw [field?, at?_cons, if_pos ((Value.sameKey_text_left name _).mpr rfl)]

theorem field?_cons_text (other name : String) (value : Value) (rest : Members) :
    field? ((.text other, value) :: rest) name =
      if other = name then some value else field? rest name := by
  split
  · rename_i h
    rw [h, field?_cons_self]
  · rename_i h
    exact field?_cons_of_ne (by simpa using h) value rest

theorem has_text (members : Members) (name : String) :
    members.has (.text name) = (members.field? name).isSome := by
  rw [← isSome_at?, field?]

theorem isNamed_cons {key value : Value} {rest : Members} :
    isNamed ((key, value) :: rest) ↔
      ∃ name, key = .text name ∧ rest.field? name = none ∧ rest.isNamed := by
  simp only [isNamed, Bool.and_eq_true, Bool.not_eq_true', Value.isText_iff]
  constructor
  · rintro ⟨⟨⟨name, rfl⟩, fresh⟩, named⟩
    exact ⟨name, rfl, by simpa [has_text] using fresh, named⟩
  · rintro ⟨name, rfl, fresh, named⟩
    exact ⟨⟨⟨name, rfl⟩, by rw [has_text, fresh]; rfl⟩, named⟩

theorem mem_of_field? {members : Members} {name : String} {value : Value}
    (h : members.field? name = some value) : (.text name, value) ∈ members := by
  induction members with
  | nil => cases h
  | cons member rest ih =>
    obtain ⟨key, other⟩ := member
    by_cases hkey : key = .text name
    · subst hkey
      rw [field?_cons_self] at h
      simp [Option.some.inj h]
    · rw [field?_cons_of_ne hkey] at h
      exact List.mem_cons_of_mem _ (ih h)

theorem key_of_mem {members : Members} (named : members.isNamed) {member : Value × Value}
    (h : member ∈ members) : ∃ name, member.1 = .text name := by
  induction members with
  | nil => cases h
  | cons head rest ih =>
    obtain ⟨name, hname, -, named⟩ := isNamed_cons.mp named
    rcases List.mem_cons.mp h with rfl | hrest
    · exact ⟨name, hname⟩
    · exact ih named hrest

/-- The keys of a mapping with text keys are all that it can be read at. -/
theorem at?_of_not_isText {members : Members} (named : members.isNamed) {key : Value}
    (h : ∀ name, key ≠ .text name) : members.at? key = none := by
  induction members with
  | nil => rfl
  | cons member rest ih =>
    obtain ⟨other, value⟩ := member
    obtain ⟨own, rfl, -, named⟩ := isNamed_cons.mp named
    rw [at?_cons, ih named, if_neg fun same => h own (Value.eq_text_of_sameKey same)]

@[simp] theorem field?_put (members : Members) (other name : String) (value : Value) :
    (members.put (.text other) value).field? name =
      if other = name then some value else members.field? name := by
  induction members with
  | nil => simp [put, field?_cons_text]
  | cons member rest ih =>
    obtain ⟨key, old⟩ := member
    by_cases hkey : key = .text other
    · subst hkey
      by_cases h : other = name <;> simp [put, field?_cons_text, h]
    · have unequal := mt (Value.sameKey_text_left other key).mp hkey
      rw [put, if_neg unequal]
      by_cases hname : key = .text name
      · subst hname
        have h : other ≠ name := fun h => hkey (h ▸ rfl)
        rw [field?_cons_self, field?_cons_self, if_neg h]
      · rw [field?_cons_of_ne hname, field?_cons_of_ne hname, ih]

@[simp] theorem field?_without (members : Members) (other name : String) :
    (members.without (.text other)).field? name =
      if other = name then none else members.field? name := by
  induction members with
  | nil => simp [without]
  | cons member rest ih =>
    obtain ⟨key, old⟩ := member
    rw [without] at ih ⊢
    by_cases hkey : key = .text other
    · subst hkey
      rw [List.filter_cons_of_neg (by simp), ih, field?_cons_text]
      split <;> simp_all
    · have unequal := mt (Value.sameKey_text_left other key).mp hkey
      rw [List.filter_cons_of_pos (by simpa using unequal)]
      by_cases hname : key = .text name
      · subst hname
        have h : other ≠ name := fun h => hkey (h ▸ rfl)
        rw [field?_cons_self, field?_cons_self, if_neg h]
      · rw [field?_cons_of_ne hname, field?_cons_of_ne hname, ih]

theorem field?_append (xs ys : Members) (name : String) :
    field? (xs ++ ys) name = (field? xs name).or (field? ys name) := by
  induction xs with
  | nil => rfl
  | cons member rest ih =>
    obtain ⟨key, value⟩ := member
    by_cases hkey : key = .text name
    · subst hkey
      rw [List.cons_append, field?_cons_self, field?_cons_self, Option.some_or]
    · rw [List.cons_append, field?_cons_of_ne hkey, field?_cons_of_ne hkey, ih]

theorem isNamed_append {xs ys : Members} (hx : xs.isNamed) (hy : ys.isNamed)
    (apart : ∀ name, (xs.field? name).isSome → ys.field? name = none) :
    isNamed (xs ++ ys) := by
  induction xs with
  | nil => exact hy
  | cons member rest ih =>
    obtain ⟨key, value⟩ := member
    obtain ⟨own, rfl, fresh, named⟩ := isNamed_cons.mp hx
    have hrest : isNamed (rest ++ ys) := by
      refine ih named fun name hname => apart name ?_
      rw [field?_cons_text]
      split
      · rfl
      · exact hname
    have hown : ys.field? own = none := apart own (by rw [field?_cons_self]; rfl)
    have later : field? (rest ++ ys) own = none := by rw [field?_append, fresh, hown]; rfl
    exact isNamed_cons.mpr ⟨own, rfl, later, hrest⟩

theorem isNamed_put {members : Members} (named : members.isNamed) (name : String)
    (value : Value) : (members.put (.text name) value).isNamed := by
  induction members with
  | nil => exact isNamed_cons.mpr ⟨name, rfl, rfl, rfl⟩
  | cons member rest ih =>
    obtain ⟨key, old⟩ := member
    obtain ⟨own, rfl, fresh, named⟩ := isNamed_cons.mp named
    rw [put, Value.sameKey_text]
    by_cases h : name = own
    · rw [if_pos (beq_iff_eq.mpr h)]
      exact isNamed_cons.mpr ⟨own, rfl, fresh, named⟩
    · rw [if_neg (by simpa using h)]
      exact isNamed_cons.mpr ⟨own, rfl, by rw [field?_put, if_neg h, fresh], ih named⟩

theorem isNamed_without {members : Members} (named : members.isNamed) (name : String) :
    (members.without (.text name)).isNamed := by
  induction members with
  | nil => rfl
  | cons member rest ih =>
    obtain ⟨key, old⟩ := member
    obtain ⟨own, rfl, fresh, named⟩ := isNamed_cons.mp named
    have later := ih named
    by_cases h : name = own
    · simpa [without, h] using later
    · have kept : without ((.text own, old) :: rest) (.text name) =
          (.text own, old) :: without rest (.text name) := by simp [without, h]
      rw [kept]
      exact isNamed_cons.mpr ⟨own, rfl, by rw [field?_without, if_neg h, fresh], later⟩

end Members

/-- The member of a mapping at a text key, null if there is none. -/
def Value.field (value : Value) (name : String) : Value :=
  .ofOption (Members.field? value.members name)

/-! ### JSON values -/

namespace Value

mutual

/-- Whether a value is one of a JSON document in which every number is a number. -/
def isJson : Value → Bool
  | .null | .bool _ | .int _ | .text _ => true
  | .float value => value != .nan
  | .list items => areJson items
  | .map members => Members.isNamed members && areJsonIn members
  | _ => false

/-- Whether all items are JSON values. -/
def areJson : List Value → Bool
  | [] => true
  | item :: items => isJson item && areJson items

/-- Whether the values of all members are JSON values. -/
def areJsonIn : Members → Bool
  | [] => true
  | (_, value) :: rest => isJson value && areJsonIn rest

end

-- Many proofs open these definitions; their equations are made once, before the first of them.
attribute [simp] isJson areJson areJsonIn

theorem isJson_list {items : List Value} :
    (Value.list items).isJson ↔ ∀ item ∈ items, item.isJson := by
  rw [isJson]
  induction items with
  | nil => simp [areJson]
  | cons item items ih => simp [areJson, ih]

theorem isJson_map {members : Members} :
    (Value.map members).isJson ↔ members.isNamed ∧ ∀ member ∈ members, member.2.isJson := by
  have values : areJsonIn members ↔ ∀ member ∈ members, member.2.isJson := by
    induction members with
    | nil => simp [areJsonIn]
    | cons member rest ih =>
      obtain ⟨key, value⟩ := member
      rw [areJsonIn, Bool.and_eq_true, ih, List.forall_mem_cons]
  rw [isJson, Bool.and_eq_true, values]

theorem isJson_of_field? {members : Members} (h : (Value.map members).isJson) {name : String}
    {value : Value} (hvalue : members.field? name = some value) : value.isJson :=
  (isJson_map.mp h).2 _ (Members.mem_of_field? hvalue)

/-- Writing a member at a name keeps an object one of JSON. -/
theorem isJson_put {members : Members} (h : (Value.map members).isJson) (name : String)
    {value : Value} (hvalue : value.isJson) :
    (Value.map (members.put (.text name) value)).isJson := by
  obtain ⟨named, values⟩ := isJson_map.mp h
  refine isJson_map.mpr ⟨Members.isNamed_put named name value, ?_⟩
  clear named h
  induction members with
  | nil => exact List.forall_mem_singleton.mpr hvalue
  | cons member rest ih =>
    obtain ⟨key, old⟩ := member
    obtain ⟨hold, hrest⟩ := List.forall_mem_cons.mp values
    rw [Members.put]
    split
    · exact List.forall_mem_cons.mpr ⟨hvalue, hrest⟩
    · exact List.forall_mem_cons.mpr ⟨hold, ih hrest⟩

/-- Writing pairs one after another makes an object of JSON if their keys are text. -/
theorem isJson_ofPairs {pairs : List (Value × Value)}
    (h : ∀ pair ∈ pairs, ∃ name, pair.1 = .text name ∧ pair.2.isJson) :
    (Value.map (Members.ofPairs pairs)).isJson := by
  have step : ∀ members : Members, (Value.map members).isJson → (Value.map
      (pairs.foldl (fun members pair => Members.put members pair.1 pair.2) members)).isJson := by
    induction pairs with
    | nil => exact fun _ json => json
    | cons pair rest ih =>
      intro members json
      obtain ⟨⟨name, hname, hvalue⟩, hrest⟩ := List.forall_mem_cons.mp h
      rw [List.foldl_cons, hname]
      exact ih hrest _ (isJson_put json name hvalue)
  exact step [] rfl

theorem not_isJson_tuple {items : List Value} (h : (Value.tuple items).isJson) : False := by
  simp [isJson] at h

theorem not_isJson_set {items : List Value} (h : (Value.set items).isJson) : False := by
  simp [isJson] at h

/-- Every number in a JSON value is a number. -/
theorem isDefinite_of_isJson {value : Value} (h : value.isJson) : value.isDefinite := by
  induction value using Value.induction with
  | leaf value hleaf =>
    cases value with
    | float value => exact h
    | list | tuple | set | map => cases hleaf
    | _ => rfl
  | list items ih =>
    rw [isDefinite, areDefinite_iff]
    intro item hitem
    exact ih item hitem (isJson_list.mp h item hitem)
  | tuple items => exact (not_isJson_tuple h).elim
  | set items => exact (not_isJson_set h).elim
  | map members ih =>
    obtain ⟨named, values⟩ := isJson_map.mp h
    rw [isDefinite, membersDefinite_iff]
    intro member hmember
    obtain ⟨name, hname⟩ := Members.key_of_mem named hmember
    rw [hname]
    exact ⟨rfl, (ih member hmember).2 (values member hmember)⟩

/-- A JSON value equals itself. -/
theorem equalWithin_self (shared : Bool) {value : Value} (h : value.isJson) :
    equalWithin shared value value = true :=
  equalWithin_self_of_isDefinite shared (isDefinite_of_isJson h)

theorem equal_eq_equalWithin (shared : Bool) {x : Value} (h : x.isJson) (y : Value) :
    equal shared x y = equalWithin shared x y := by
  unfold equal
  split
  · simp [isJson] at h
  · rfl

theorem equal_self (shared : Bool) {value : Value} (h : value.isJson) :
    equal shared value value = true := by
  rw [equal_eq_equalWithin shared h, equalWithin_self shared h]

/-- What a JSON value is equal to, it is equal to without the help of shared parts. -/
theorem equal_of_equal_shared {shared : Bool} {x y : Value} (h : x.isJson)
    (hxy : equal shared x y = true) : equal false x y = true :=
  equal_trans (equal_self false h) hxy

end Value

end Reconciler

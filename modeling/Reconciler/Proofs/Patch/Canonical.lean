import Reconciler.Proofs.Patch.Unchanged
import Reconciler.Proofs.Value.Form
import Reconciler.Proofs.Value.Sorting
import Reconciler.Proofs.Value.Tree

/-!
# Canonical texts

The canonical text of a value is read back as the value on the wire, so values with one text are
one value there. This value is a normal form: JSON values are the same, whatever the order of their
members, exactly if they are one value on the wire, because the names of an object can be put in
order in one way only. The value on the wire is not changed by being sent again, and it has the
canonical text of the value that was sent.

Main statement: every document has a canonical text, which is read back as the same document, has
that one document alone, and is written again for what is read.
-/

namespace Reconciler

/-- Writing members with different names one after another gives these members. -/
theorem Members.ofPairs_eq_self {members : Members} (named : members.isNamed) :
    ofPairs members = members := by
  have step : ∀ front : Members, isNamed (front ++ members) →
      members.foldl (fun members pair => put members pair.1 pair.2) front = front ++ members := by
    clear named
    induction members with
    | nil => exact fun front _ => (List.append_nil front).symm
    | cons member rest ih =>
      intro front named
      obtain ⟨name, value, rfl, -⟩ := exists_name_of_mem named (by simp : member ∈ _)
      have absent : field? front name = none := by
        refine Option.eq_none_iff_forall_ne_some.mpr fun other hfield => ?_
        have distinct := nodup_keys named
        rw [keys, List.map_append, List.nodup_append] at distinct
        exact distinct.2.2 _ (List.mem_map.mpr ⟨_, mem_of_field? hfield, rfl⟩) _
          (List.mem_cons_self ..) rfl
      rw [List.append_cons] at named ⊢
      rw [List.foldl_cons, put_of_absent absent, ih _ named]
  exact step [] named

namespace Json

variable {members xs ys : Members}

/-! ### Members in order -/

/-- The names of an object can be put in order, whatever its values are made of. -/
theorem isSortable {α : Type} (named : members.isNamed) (f : Value → α) :
    Value.IsSortable (fun x y => Value.less? x.1 y.1)
      (members.map fun member => (member.1, f member.2)) where
  distinct := by
    rw [List.map_map]
    exact Members.nodup_keys named
  text entry hmem := by
    obtain ⟨member, hmember, rfl⟩ := List.mem_map.mp hmem
    obtain ⟨name, value, rfl, -⟩ := Members.exists_name_of_mem named hmember
    exact ⟨name, rfl⟩
  less x hx y hy := by
    obtain ⟨member, hmember, rfl⟩ := List.mem_map.mp hx
    obtain ⟨other, hother, rfl⟩ := List.mem_map.mp hy
    obtain ⟨name, value, rfl, -⟩ := Members.exists_name_of_mem named hmember
    obtain ⟨own, held, rfl, -⟩ := Members.exists_name_of_mem named hother
    simp [Value.less?, Value.scalarLess?]

theorem sorted_perm (members : Members) : (sorted members).Perm members :=
  Value.sortBy_perm _ members

/-- Members are in the same order once they are sorted exactly if they are the same members. -/
theorem sorted_eq_iff (named : ys.isNamed) : sorted xs = sorted ys ↔ xs.Perm ys := by
  constructor
  · intro same
    exact (sorted_perm xs).symm.trans (same ▸ sorted_perm ys)
  · intro perm
    have sortable := isSortable named id
    rw [show (ys.map fun member => (member.1, id member.2)) = ys from List.map_id ys] at sortable
    exact sortable.sortBy_eq perm

theorem isSortable_encodeMembers (named : members.isNamed) :
    Value.IsSortable (fun x y => Value.less? x.1 y.1) (encodeMembers members) := by
  rw [encodeMembers_eq_map]
  exact isSortable named encode

/-- The text of an object does not depend on the order of its members. -/
theorem encode_map_of_perm (named : ys.isNamed)
    (perm : (encodeMembers xs).Perm (encodeMembers ys)) :
    encode (.map xs) = encode (.map ys) := by
  have sortable := isSortable_encodeMembers named
  rw [encode, encode, sortable.sortBy?_eq perm, sortable.sortBy?_eq (.refl _)]

/-! ### The value on the wire -/

/-- What is made of values that were changed before is made of the values themselves, if the change
makes no difference to it. -/
theorem map_values {α : Type} {f : Value → α} {change : Value → Value}
    (h : ∀ member ∈ members, f (change member.2) = f member.2) :
    (members.map fun member => (member.1, change member.2)).map
        (fun member => (member.1, f member.2)) =
      members.map fun member => (member.1, f member.2) := by
  rw [List.map_map]
  refine List.map_congr_left fun member hmem => ?_
  rw [Function.comp_apply, h member hmem]

theorem isNamed_wireMembers (named : members.isNamed) : (wireMembers members).isNamed := by
  rw [wireMembers_eq_map]
  exact Members.isNamed_map named wire

theorem field?_wireMembers (members : Members) (name : String) :
    (wireMembers members).field? name = (members.field? name).map wire := by
  rw [wireMembers_eq_map, Members.field?_map]

theorem wireMembers_perm (perm : xs.Perm ys) : (wireMembers xs).Perm (wireMembers ys) := by
  rw [wireMembers_eq_map, wireMembers_eq_map]
  exact perm.map _

theorem encodeMembers_perm (perm : xs.Perm ys) : (encodeMembers xs).Perm (encodeMembers ys) := by
  rw [encodeMembers_eq_map, encodeMembers_eq_map]
  exact perm.map _

/-- On the wire an object has its members in the order of their names. -/
theorem wire_map_of_isNamed (named : members.isNamed) :
    wire (.map members) = .map (sorted (wireMembers members)) := by
  have ordered := Members.isNamed_of_perm (sorted_perm _) (isNamed_wireMembers named)
  have keys : (sorted (wireMembers members)).map (fun member => (wireKey member.1, member.2)) =
      sorted (wireMembers members) := by
    refine (List.map_congr_left fun member hmem => ?_).trans (List.map_id _)
    obtain ⟨name, value, rfl, -⟩ := Members.exists_name_of_mem ordered hmem
    simp [wireKey, keyText]
  rw [wire]
  change Value.map (Members.ofPairs ((sorted (wireMembers members)).map _)) = _
  rw [keys, Members.ofPairs_eq_self ordered]

/-- Two objects are one on the wire if they have one value on the wire at each name. -/
theorem wire_map_eq_iff (hx : xs.isNamed) (hy : ys.isNamed) :
    wire (.map xs) = wire (.map ys) ↔
      ∀ name, (xs.field? name).map wire = (ys.field? name).map wire := by
  rw [wire_map_of_isNamed hx, wire_map_of_isNamed hy, Value.map.injEq,
    sorted_eq_iff (isNamed_wireMembers hy),
    Members.perm_iff (isNamed_wireMembers hx) (isNamed_wireMembers hy)]
  simp only [field?_wireMembers]

theorem wire_of_isLeaf {value : Value} (json : value.isJson) (leaf : value.isLeaf) :
    wire value = value := by
  cases value with
  | list | tuple | set | map => cases leaf
  | date | moment | bytes => simp [Value.isJson] at json
  | _ => rfl

theorem areSame_iff_wire_eq {xs ys : List Value}
    (h : ∀ x ∈ xs, ∀ y ∈ ys, x.isSame y = true ↔ wire x = wire y) :
    Value.areSame xs ys = true ↔ xs.map wire = ys.map wire := by
  induction xs generalizing ys with
  | nil => cases ys <;> simp [Value.areSame]
  | cons x xs ih =>
    cases ys with
    | nil => simp [Value.areSame]
    | cons y ys =>
      rw [Value.areSame, Bool.and_eq_true, List.map_cons, List.map_cons, List.cons.injEq,
        h x (List.mem_cons_self ..) y (List.mem_cons_self ..), ih fun x hx y hy =>
          h x (List.mem_cons_of_mem _ hx) y (List.mem_cons_of_mem _ hy)]

/-- JSON values are the same exactly if they are one value on the wire. -/
theorem isSame_iff_wire_eq {x y : Value} (hx : x.isJson) (hy : y.isJson) :
    x.isSame y = true ↔ wire x = wire y := by
  induction x using Value.induction generalizing y with
  | leaf x hleaf =>
    -- A leaf is the same as itself alone, and no collection becomes a leaf on the wire.
    rw [Value.isSame_iff_of_isLeaf hx hleaf, wire_of_isLeaf hx hleaf]
    cases y with
    | list | map =>
      cases x with
      | list | tuple | set | map => cases hleaf
      | _ => simp [wire]
    | tuple | set | date | moment | bytes => simp [Value.isJson] at hy
    | _ => rfl
  | list xs ih =>
    cases y with
    | list ys =>
      rw [Value.isSame, wire, wire, Value.list.injEq, wireItems_eq_map, wireItems_eq_map]
      refine areSame_iff_wire_eq fun x hmem y hmem' => ?_
      exact ih x hmem (Value.isJson_list.mp hx x hmem) (Value.isJson_list.mp hy y hmem')
    | tuple | set | date | moment | bytes => simp [Value.isJson] at hy
    | _ => simp [Value.isSame, wire]
  | tuple items => exact (Value.not_isJson_tuple hx).elim
  | set items => exact (Value.not_isJson_set hx).elim
  | map xs ih =>
    cases y with
    | map ys =>
      obtain ⟨namedX, valuesX⟩ := Value.isJson_map.mp hx
      obtain ⟨namedY, valuesY⟩ := Value.isJson_map.mp hy
      rw [Value.isSame_map_iff namedX namedY, wire_map_eq_iff namedX namedY]
      refine forall_congr' fun name => ?_
      cases hfirst : Members.field? xs name with
      | none => cases Members.field? ys name <;> simp
      | some x =>
        cases hsecond : Members.field? ys name with
        | none => simp
        | some y =>
          have hmem := Members.mem_of_field? hfirst
          simpa using (ih _ hmem).2 (valuesX _ hmem) (valuesY _ (Members.mem_of_field? hsecond))
    | tuple | set | date | moment | bytes => simp [Value.isJson] at hy
    | _ => simp [Value.isSame, wire]

/-- Dates and moments are text on the wire. -/
theorem wire_portable (value : Value) : wire value.portable = wire value := by
  induction value using Value.induction with
  | leaf value hleaf =>
    cases value with
    | list | tuple | set | map => cases hleaf
    | _ => simp [Value.portable, wire]
  | list items ih | tuple items ih =>
    have same : items.map (wire ∘ Value.portable) = items.map wire := List.map_congr_left ih
    simp only [Value.portable, wire, wireItems_eq_map, Value.portableItems_eq_map, List.map_map,
      same]
  | set items => simp [Value.portable]
  | map members ih =>
    have same : wireMembers (Value.portableMembers members) = wireMembers members := by
      rw [Value.portableMembers_eq_map, wireMembers_eq_map, wireMembers_eq_map]
      exact map_values fun member hmem => (ih member hmem).2
    rw [Value.portable, wire, wire, same]

end Json

/-! ### Documents -/

namespace Value

mutual

/-- Whether a value is one that can be written and told from all others: its whole numbers are short
enough, its floating-point numbers are numbers in normal form, and its mappings have text keys, each
once. It has neither bytes nor sets nor tuples. -/
def isDocument : Value → Bool
  | .null | .bool _ | .text _ | .date _ | .moment _ => true
  | .int value => Text.writable value
  | .float value => value != .nan && value.isNormal
  | .list items => areDocuments items
  | .map members => Members.isNamed members && areDocumentsIn members
  | _ => false

/-- Whether this holds of all items. -/
def areDocuments : List Value → Bool
  | [] => true
  | item :: items => isDocument item && areDocuments items

/-- Whether this holds of the values of all members. -/
def areDocumentsIn : Members → Bool
  | [] => true
  | (_, value) :: rest => isDocument value && areDocumentsIn rest

end

theorem isDocument_list {items : List Value} :
    (Value.list items).isDocument ↔ ∀ item ∈ items, item.isDocument := by
  rw [isDocument]
  induction items with
  | nil => simp [areDocuments]
  | cons item items ih => rw [areDocuments, Bool.and_eq_true, ih, List.forall_mem_cons]

theorem isDocument_map {members : Members} : (Value.map members).isDocument ↔
    members.isNamed ∧ ∀ member ∈ members, member.2.isDocument := by
  have values : areDocumentsIn members ↔ ∀ member ∈ members, member.2.isDocument := by
    induction members with
    | nil => simp [areDocumentsIn]
    | cons member rest ih =>
      obtain ⟨key, value⟩ := member
      rw [areDocumentsIn, Bool.and_eq_true, ih, List.forall_mem_cons]
  rw [isDocument, Bool.and_eq_true, values]

/-- A property of all documents may be proved for each one from its items or its values. -/
theorem document_induction {motive : (value : Value) → value.isDocument → Prop}
    (leaf : ∀ value h, value.isLeaf → motive value h)
    (list : ∀ items h, (∀ item hmem, motive item (isDocument_list.mp h item hmem)) →
      motive (.list items) h)
    (map : ∀ members h, Members.isNamed members →
      (∀ member hmem, motive member.2 ((isDocument_map.mp h).2 member hmem)) →
        motive (.map members) h) (value : Value) (h : value.isDocument) : motive value h := by
  induction value using Value.induction with
  | leaf value hleaf => exact leaf value h hleaf
  | list items ih => exact list items h fun item hmem => ih item hmem _
  | tuple items => simp [isDocument] at h
  | set items => simp [isDocument] at h
  | map members ih =>
    exact map members h (isDocument_map.mp h).1 fun member hmem => (ih member hmem).2 _

theorem isRegular_of_isDocument {value : Value} (h : value.isDocument) : value.isRegular := by
  induction value, h using document_induction with
  | leaf value h hleaf =>
    cases value with
    | float value => exact h
    | list | tuple | set | map => cases hleaf
    | _ => rfl
  | list items h ih =>
    rw [isRegular, areRegular_iff]
    exact ih
  | map members h named ih =>
    rw [isRegular, areRegularIn_iff]
    exact ih

/-- With its dates and moments as text a document is a JSON value. -/
theorem isJson_portable {value : Value} (h : value.isDocument) : value.portable.isJson := by
  induction value, h using document_induction with
  | leaf value h hleaf =>
    cases value with
    | float value =>
      rw [isDocument, Bool.and_eq_true] at h
      simpa [portable] using h.1
    | bytes => simp [isDocument] at h
    | list | tuple | set | map => cases hleaf
    | _ => simp [portable]
  | list items h ih =>
    rw [portable, portableItems_eq_map, isJson_list]
    exact List.forall_mem_map.mpr ih
  | map members h named ih =>
    rw [portable, portableMembers_eq_map, isJson_map]
    exact ⟨Members.isNamed_map named portable, List.forall_mem_map.mpr ih⟩

end Value

namespace Json

variable {value : Value}

/-- Items that have texts have one together. -/
theorem exists_encodeItems {items : List Value}
    (h : ∀ item ∈ items, ∃ text, encode item = .ok text) :
    ∃ parts, encodeItems items = .ok parts := by
  induction items with
  | nil => exact ⟨[], rfl⟩
  | cons item items ih =>
    obtain ⟨⟨text, htext⟩, hitems⟩ := List.forall_mem_cons.mp h
    obtain ⟨parts, hparts⟩ := ih hitems
    refine ⟨text :: parts, ?_⟩
    rw [encodeItems, htext, hparts]
    rfl

theorem exists_encodeEntries {entries : List (Value × Except Refusal (List Char))}
    (h : ∀ entry ∈ entries, ∃ name text, entry = (.text name, .ok text)) :
    ∃ parts, encodeEntries entries = .ok parts := by
  induction entries with
  | nil => exact ⟨[], rfl⟩
  | cons entry rest ih =>
    obtain ⟨⟨name, text, rfl⟩, hrest⟩ := List.forall_mem_cons.mp h
    obtain ⟨parts, hparts⟩ := ih hrest
    refine ⟨(encodeText name.toList ++ ':' :: text) :: parts, ?_⟩
    rw [encodeEntries, hparts]
    rfl

/-- Every document has a canonical text. -/
theorem exists_encode (h : value.isDocument) : ∃ text, encode value = .ok text := by
  induction value, h using Value.document_induction with
  | leaf value h hleaf =>
    cases value with
    | int value =>
      rw [Value.isDocument] at h
      refine ⟨(toString value).toList, ?_⟩
      rw [encode, encodeInt, if_pos h]
    | bytes => simp [Value.isDocument] at h
    | list | tuple | set | map => cases hleaf
    | _ => exact ⟨_, rfl⟩
  | list items h ih =>
    obtain ⟨parts, hparts⟩ := exists_encodeItems ih
    refine ⟨'[' :: joined parts ++ [']'], ?_⟩
    rw [encode, hparts]
    rfl
  | map members h named ih =>
    obtain ⟨parts, hparts⟩ : ∃ parts, encodeEntries
        (Value.sortBy (fun x y => (Value.less? x.1 y.1).getD false) (encodeMembers members)) =
          .ok parts := by
      refine exists_encodeEntries fun entry hmem => ?_
      rw [(Value.sortBy_perm _ _).mem_iff, encodeMembers_eq_map] at hmem
      obtain ⟨member, hmember, rfl⟩ := List.mem_map.mp hmem
      obtain ⟨name, hname⟩ := Members.key_of_mem named hmember
      obtain ⟨text, htext⟩ := ih member hmember
      exact ⟨name, text, by rw [hname, htext]⟩
    refine ⟨'{' :: joined parts ++ ['}'], ?_⟩
    rw [encode, (isSortable_encodeMembers named).sortBy?_eq (.refl _)]
    simp only [hparts]
    rfl

/-- The value on the wire is the same on the wire. -/
theorem wire_wire (h : value.isDocument) : wire (wire value) = wire value := by
  induction value, h using Value.document_induction with
  | leaf value h hleaf => cases value <;> first | rfl | cases hleaf
  | list items h ih =>
    have same : items.map (wire ∘ wire) = items.map wire := List.map_congr_left ih
    rw [wire, wire, wireItems_eq_map, wireItems_eq_map, List.map_map, same]
  | map members h named ih =>
    have ordered := Members.isNamed_of_perm (sorted_perm _) (isNamed_wireMembers named)
    have same : wireMembers (wireMembers members) = wireMembers members := by
      rw [wireMembers_eq_map, wireMembers_eq_map]
      exact map_values ih
    -- What is sent again is in order already, and sorting it once more changes nothing.
    rw [wire_map_of_isNamed named, wire_map_of_isNamed ordered, Value.map.injEq,
      sorted_eq_iff (isNamed_wireMembers named)]
    have perm := wireMembers_perm (sorted_perm (wireMembers members))
    rwa [same] at perm

theorem encodeItems_wireItems {items : List Value}
    (h : ∀ item ∈ items, encode (wire item) = encode item) :
    encodeItems (wireItems items) = encodeItems items := by
  induction items with
  | nil => rfl
  | cons item items ih =>
    obtain ⟨here, hitems⟩ := List.forall_mem_cons.mp h
    rw [wireItems, encodeItems, encodeItems, here, ih hitems]

/-- The value on the wire has the canonical text of the value that is sent. -/
theorem encode_wire (h : value.isDocument) : encode (wire value) = encode value := by
  induction value, h using Value.document_induction with
  | leaf value h hleaf => cases value <;> first | rfl | cases hleaf
  | list items h ih => rw [wire, encode, encode, encodeItems_wireItems ih]
  | map members h named ih =>
    have same : encodeMembers (wireMembers members) = encodeMembers members := by
      rw [wireMembers_eq_map, encodeMembers_eq_map, encodeMembers_eq_map]
      exact map_values ih
    rw [wire_map_of_isNamed named]
    refine encode_map_of_perm named ?_
    rw [← same]
    exact encodeMembers_perm (sorted_perm (wireMembers members))

end Json

namespace Patch

variable {x : Value}

theorem canonicalText_eq_ok {text : List Char} :
    canonicalText x = .ok text ↔ Json.encode x = .ok text := by
  rw [canonicalText]
  cases Json.encode x <;> simp [Except.mapError]

/-- A document has a canonical text. What is read from it is the document, with its dates and
moments as text; it has the same canonical text, and all documents with this text are the same
but for the order of members. -/
theorem canonical_text_is_canonical (h : x.isDocument) : ∃ text back,
    canonicalText x = .ok text ∧
    Json.decode text = some back ∧ back.isSame x.portable = true ∧
    canonicalText back = .ok text ∧
    ∀ y, y.isDocument → (canonicalText y = .ok text ↔ x.portable.isSame y.portable = true) := by
  obtain ⟨text, htext⟩ := Json.exists_encode h
  have regular := Value.isRegular_of_isDocument h
  simp only [canonicalText_eq_ok]
  refine ⟨text, Json.wire x, htext, Json.decode_encode regular htext, ?_, ?_, fun y hy => ?_⟩
  · rw [Json.isSame_iff_wire_eq (Json.isJson_wire regular htext) (Value.isJson_portable h),
      Json.wire_wire h, Json.wire_portable]
  · rw [Json.encode_wire h, htext]
  · rw [Json.isSame_iff_wire_eq (Value.isJson_portable h) (Value.isJson_portable hy),
      Json.wire_portable, Json.wire_portable]
    constructor
    · intro same
      exact Json.wire_eq_of_encode_eq regular (Value.isRegular_of_isDocument hy) htext same
    · intro same
      rw [← Json.encode_wire hy, ← same, Json.encode_wire h, htext]

/-- A reading with a date, the negative zero, text beyond the basic plane and a value. -/
def reading (value : Value) : Members := [
  (.text "on", .date ⟨2024, 1, 5⟩),
  (.text "zero", .float (.finite true 0 Double.leastExponent)),
  (.text "a😀", .list [.text "𝄞", value])]

/-- The same reading from last to first, with its date as text. -/
def turnedReading (value : Value) : Members := [
  (.text "a😀", .list [.text "𝄞", value]),
  (.text "zero", .float (.finite true 0 Double.leastExponent)),
  (.text "on", .text "2024-01-05")]

theorem canonical_text_is_canonical_reading : ∃ text back,
    canonicalText (.map (reading (.int 1))) = .ok text ∧
    Json.decode text = some back ∧ back.isSame (Value.map (reading (.int 1))).portable = true ∧
    canonicalText back = .ok text ∧
    canonicalText (.map (turnedReading (.int 1))) = .ok text ∧
    canonicalText (.map (turnedReading (.float (Double.nearest false 1 1)))) ≠ .ok text ∧
    canonicalText (.map (turnedReading (.bool true))) ≠ .ok text := by
  obtain ⟨text, back, written, read, same, again, alone⟩ :=
    @canonical_text_is_canonical (.map (reading (.int 1))) (by decide +kernel)
  refine ⟨text, back, written, read, same, again, ?_, ?_, ?_⟩
  · exact (alone _ (by decide +kernel)).mpr (by decide +kernel)
  · exact (alone _ (by decide +kernel)).not.mpr (by decide +kernel)
  · exact (alone _ (by decide +kernel)).not.mpr (by decide +kernel)

end Patch

end Reconciler

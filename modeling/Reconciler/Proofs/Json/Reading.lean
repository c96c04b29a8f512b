import Reconciler.Proofs.Json.Text
import Reconciler.Proofs.Number.Reading
import Reconciler.Proofs.Value.Json
import Reconciler.Problem
import Mathlib.Data.List.TakeDrop

/-!
# Canonical texts that are read back

The canonical text of a value spells `wire` of the value: reading the text gives that value
and nothing else. So two values with one canonical text are the same on the wire, and what a
server reads does not depend on how a manifest was written.

A value is read in front of any rest that cannot go on with a number; what bounds the steps is
twice the length of its text.
-/

namespace Reconciler

namespace Value

mutual

/-- Whether every floating-point number of a value, keys aside, is a number in normal form. -/
def isRegular : Value → Bool
  | .float value => value != .nan && value.isNormal
  | .list items | .tuple items => areRegular items
  | .map members => areRegularIn members
  | _ => true

/-- Whether this holds of all items. -/
def areRegular : List Value → Bool
  | [] => true
  | item :: items => isRegular item && areRegular items

/-- Whether this holds of the values of all members. -/
def areRegularIn : Members → Bool
  | [] => true
  | (_, value) :: rest => isRegular value && areRegularIn rest

end

theorem areRegular_iff {items : List Value} :
    areRegular items ↔ ∀ item ∈ items, item.isRegular := by
  induction items with
  | nil => simp [areRegular]
  | cons item items ih => rw [areRegular, Bool.and_eq_true, ih, List.forall_mem_cons]

theorem areRegularIn_iff {members : Members} :
    areRegularIn members ↔ ∀ member ∈ members, member.2.isRegular := by
  induction members with
  | nil => simp [areRegularIn]
  | cons member rest ih =>
    obtain ⟨key, value⟩ := member
    rw [areRegularIn, Bool.and_eq_true, ih, List.forall_mem_cons]

end Value

namespace Json

open Reconciler.Text
open Reconciler.Double (IsNumeral IsUnsigned)

/-! ### Numbers -/

theorem inNumber_of_isNumeral {c : Char} (h : IsNumeral c) : inNumber c = true := by
  rcases h with digit | mark
  · have range := toNat_of_isDigit digit
    have ascii : isAsciiDigit c = true := by
      rw [isAsciiDigit, Bool.and_eq_true, decide_eq_true_eq, decide_eq_true_eq]
      exact ⟨UInt32.le_iff_toNat_le.mpr range.1, UInt32.le_iff_toNat_le.mpr range.2⟩
    rw [inNumber, ascii]
    rfl
  · have table : ['.', 'e', '+', '-'].all inNumber := by decide
    exact List.all_eq_true.mp table c mark

/-- Text that cannot go on with a number. -/
def Delimited (text : List Char) : Prop := ∀ c ∈ text.head?, inNumber c = false

theorem delimited_nil : Delimited [] := by
  intro c hc
  cases hc

theorem delimited_cons {c : Char} (h : inNumber c = false) (rest : List Char) :
    Delimited (c :: rest) := by
  intro head hhead
  obtain rfl := Option.some.inj hhead
  exact h

theorem span_inNumber {number rest : List Char} (h : ∀ c ∈ number, inNumber c = true)
    (ends : Delimited rest) : (number ++ rest).span inNumber = (number, rest) := by
  rw [List.span_eq_takeWhile_dropWhile, List.takeWhile_append_of_pos h,
    List.dropWhile_append_of_pos h]
  cases rest with
  | nil => simp
  | cons c rest =>
    have stop := ends c rfl
    rw [List.takeWhile_cons_of_neg (by simp [stop]), List.dropWhile_cons_of_neg (by simp [stop]),
      List.append_nil]

theorem skipBlanks_cons {c : Char} (h : c ∉ [' ', '\n', '\t', '\r']) (rest : List Char) :
    skipBlanks (c :: rest) = c :: rest := by
  rw [skipBlanks, List.dropWhile_cons_of_neg]
  simpa [or_assoc] using h

theorem not_blank_of_isDigit {c : Char} (h : c.isDigit) : c ∉ [' ', '\n', '\t', '\r'] := by
  have table : [' ', '\n', '\t', '\r'].all fun blank => !blank.isDigit := by decide
  intro hmem
  simpa [h] using List.all_eq_true.mp table c hmem

/-- A number with its sign is read up to where it ends. -/
theorem readValue_signed {magnitude rest : List Char} (h : IsUnsigned magnitude)
    (ends : Delimited rest) (negative : Bool) (fuel : Nat) :
    readValue (fuel + 1) (signed negative magnitude ++ rest) =
      (readNumber (signed negative magnitude)).map fun number => (number, rest) := by
  obtain ⟨first, more, rfl⟩ := List.exists_cons_of_ne_nil h.nonempty
  have digit := h.first first rfl
  have other : ∀ c, c.isDigit = false → first ≠ c := by
    rintro c notDigit rfl
    rw [digit] at notDigit
    cases notDigit
  have chars : ∀ c ∈ first :: more, inNumber c = true :=
    fun c hc => inNumber_of_isNumeral (h.numeral c hc)
  cases negative with
  | true =>
    have span := span_inNumber (List.forall_mem_cons.mpr ⟨rfl, chars⟩ :
      ∀ c ∈ '-' :: first :: more, inNumber c = true) ends
    rw [signed, if_pos rfl]
    rw [List.cons_append] at span ⊢
    rw [readValue, skipBlanks_cons (by decide)]
    split
    case h_10 =>
      rw [span]
      dsimp only
      cases readNumber ('-' :: first :: more) <;> rfl
    all_goals
      rename_i heq
      first
        | exact absurd (List.cons.inj heq).1 (by decide)
        | exact absurd (List.cons.inj (List.cons.inj heq).2).1 (other _ rfl)
  | false =>
    have span := span_inNumber chars ends
    rw [signed, if_neg (by decide)]
    rw [List.cons_append] at span ⊢
    rw [readValue, skipBlanks_cons (not_blank_of_isDigit digit)]
    split
    case h_10 =>
      rw [span]
      dsimp only
      cases readNumber (first :: more) <;> rfl
    all_goals
      rename_i heq
      exact absurd (List.cons.inj heq).1 (other _ rfl)

theorem isUnsigned_toDigits (value : Nat) : IsUnsigned (Nat.toDigits 10 value) where
  nonempty := Nat.toDigits_ne_nil
  first _ hc := isDigit_of_mem_toDigits (List.mem_of_mem_head? hc)
  numeral _ hc := .inl (isDigit_of_mem_toDigits hc)

/-- Whether a character tells that a number is not written as a whole one. -/
def isMark (c : Char) : Bool := c == '.' || c == 'e' || c == 'E'

theorem isMark_of_isDigit {c : Char} (h : c.isDigit) : isMark c = false := by
  have table : ∀ c, isMark c = true → c.isDigit = false := by
    intro c hc
    simp only [isMark, Bool.or_eq_true, beq_iff_eq] at hc
    rcases hc with (rfl | rfl) | rfl <;> rfl
  refine Bool.eq_false_iff.mpr fun hmark => ?_
  rw [table c hmark] at h
  cases h

theorem readNumber_int {value : Int} (h : writable value) :
    readNumber (toString value).toList = some (.int value) := by
  have noMark : (toString value).toList.any isMark = false := by
    have digits : (Nat.toDigits 10 value.natAbs).any isMark = false :=
      List.any_eq_false.mpr fun c hc => by simp [isMark_of_isDigit (isDigit_of_mem_toDigits hc)]
    rw [toList_toString, signed]
    split
    · rw [List.any_cons, digits]
      rfl
    · exact digits
  unfold isMark at noMark
  rw [readNumber, noMark, if_neg (by decide), readInteger_toString h, Option.map_some]

theorem readNumber_finite {negative : Bool} {significand : Nat} {exponent : Int}
    (h : Double.isNormal (.finite negative significand exponent)) :
    readNumber (Double.text (.finite negative significand exponent)).toList =
      some (.float (.finite negative significand exponent)) := by
  have hasMark :
      (Double.text (.finite negative significand exponent)).toList.any isMark = true := by
    obtain ⟨magnitude, text, form, -⟩ := Double.exists_text h
    obtain ⟨c, hmem, hc⟩ := form.marked
    have marked : isMark c = true := by
      rcases hc with rfl | rfl <;> rfl
    rw [text, signed]
    refine List.any_eq_true.mpr ⟨c, ?_, marked⟩
    split
    · exact List.mem_cons_of_mem _ hmem
    · exact hmem
  unfold isMark at hasMark
  rw [readNumber, hasMark, if_pos rfl, Double.read_text h, Option.map_some]

/-! ### Values in front of a rest -/

/-- A text is read as a value in front of all that cannot go on with a number, in steps that
its length bounds. It starts with neither a blank nor the end of a list. -/
structure ReadsAs (text : List Char) (value : Value) : Prop where
  nonempty : text ≠ []
  start : ∀ c ∈ text.head?, c ∉ [' ', '\n', '\t', '\r', ']']
  read : ∀ fuel rest, 2 * text.length ≤ fuel → Delimited rest →
    readValue fuel (text ++ rest) = some (value, rest)

/-- A text is read as a value if that takes one step. -/
theorem ReadsAs.of_one {text : List Char} {value : Value} (nonempty : text ≠ [])
    (start : ∀ c ∈ text.head?, c ∉ [' ', '\n', '\t', '\r', ']'])
    (read : ∀ fuel rest, Delimited rest →
      readValue (fuel + 1) (text ++ rest) = some (value, rest)) : ReadsAs text value := by
  refine ⟨nonempty, start, fun fuel rest enough ends => ?_⟩
  have positive := List.length_pos_iff.mpr nonempty
  obtain ⟨fuel, rfl⟩ := Nat.exists_eq_succ_of_ne_zero (by omega : fuel ≠ 0)
  exact read fuel rest ends

/-- A word is read as a value if that takes one step. -/
theorem ReadsAs.of_word {c : Char} {word : List Char} {value : Value}
    (start : c ∉ [' ', '\n', '\t', '\r', ']'])
    (read : ∀ fuel rest, readValue (fuel + 1) (c :: word ++ rest) = some (value, rest)) :
    ReadsAs (c :: word) value := by
  refine .of_one (List.cons_ne_nil c word) (fun first hfirst => ?_)
    fun fuel rest _ => read fuel rest
  obtain rfl := Option.some.inj hfirst
  exact start

theorem readsAs_signed {magnitude : List Char} (h : IsUnsigned magnitude) (negative : Bool)
    {value : Value} (hread : readNumber (signed negative magnitude) = some value) :
    ReadsAs (signed negative magnitude) value := by
  refine .of_one ?_ ?_ fun fuel rest ends => ?_
  · cases negative with
    | true => simp [signed]
    | false => exact h.nonempty
  · intro c hc
    cases negative with
    | true =>
      obtain rfl := Option.some.inj hc
      decide
    | false =>
      have digit := h.first c hc
      have table : [' ', '\n', '\t', '\r', ']'].all fun c => !c.isDigit := by decide
      intro hmem
      simpa [digit] using List.all_eq_true.mp table c hmem
  · rw [readValue_signed h ends, hread, Option.map_some]

theorem readsAs_encodeText (text : List Char) :
    ReadsAs (encodeText text) (.text (String.ofList text)) := by
  refine .of_one (by simp [encodeText]) ?_ fun fuel rest _ => ?_
  · intro c hc
    obtain rfl := Option.some.inj hc
    decide
  · have enough : text.length < (text.flatMap encodeChar ++ '"' :: rest).length + 1 := by
      have := length_le_encodeText text
      rw [List.length_append]
      omega
    have read := readText_encodeText text rest enough
    have split : encodeText text ++ rest = '"' :: (text.flatMap encodeChar ++ '"' :: rest) := by
      simp [encodeText]
    rw [split, readValue, skipBlanks_cons (by decide)]
    simp only [read, Option.bind_eq_bind, Option.bind_some]
    rfl

theorem readsAs_encodeInt {value : Int} {text : List Char} (h : encodeInt value = .ok text) :
    ReadsAs text (.int value) := by
  unfold encodeInt at h
  split at h
  · rename_i short
    cases h
    have read := readNumber_int short
    rw [toList_toString] at read ⊢
    exact readsAs_signed (isUnsigned_toDigits _) _ read
  · cases h

theorem readsAs_encodeDouble {value : Double} (number : value ≠ .nan) (normal : value.isNormal) :
    ReadsAs (encodeDouble value) (.float value) := by
  cases value with
  | nan => exact (number rfl).elim
  | infinite negative =>
    cases negative with
    | true =>
      exact @ReadsAs.of_word '-' ['I', 'n', 'f', 'i', 'n', 'i', 't', 'y'] _ (by decide)
        fun fuel rest => rfl
    | false =>
      exact @ReadsAs.of_word 'I' ['n', 'f', 'i', 'n', 'i', 't', 'y'] _ (by decide)
        fun fuel rest => rfl
  | finite negative significand exponent =>
    have read := readNumber_finite normal
    obtain ⟨magnitude, text, form, -⟩ := Double.exists_text normal
    rw [encodeDouble]
    · rw [text] at read ⊢
      exact readsAs_signed form.toIsUnsigned negative read
    · simp
    · simp

theorem readsAs_null : ReadsAs "null".toList .null :=
  @ReadsAs.of_word 'n' ['u', 'l', 'l'] .null (by decide) fun fuel rest => rfl

theorem readsAs_bool (value : Bool) :
    ReadsAs (if value then "true".toList else "false".toList) (.bool value) := by
  cases value with
  | true => exact @ReadsAs.of_word 't' ['r', 'u', 'e'] _ (by decide) fun fuel rest => rfl
  | false => exact @ReadsAs.of_word 'f' ['a', 'l', 's', 'e'] _ (by decide) fun fuel rest => rfl

/-! ### Items and members -/

theorem joined_cons (part : List Char) {parts : List (List Char)} (h : parts ≠ []) :
    joined (part :: parts) = part ++ ',' :: joined parts := by
  cases parts with
  | nil => exact (h rfl).elim
  | cons next parts => rfl

/-- Items between commas are read one by one up to the closing bracket. -/
theorem readItems_joined {parts : List (List Char)} {items : List Value}
    (h : List.Forall₂ ReadsAs parts items) (nonempty : parts ≠ []) {fuel : Nat}
    (enough : 2 * (joined parts).length + 1 ≤ fuel) (rest : List Char) :
    readItems fuel (joined parts ++ ']' :: rest) = some (items, rest) := by
  induction h generalizing fuel with
  | nil => exact (nonempty rfl).elim
  | @cons part item parts items here later ih =>
    obtain ⟨fuel, rfl⟩ := Nat.exists_eq_succ_of_ne_zero (by omega : fuel ≠ 0)
    by_cases last : parts = []
    · subst last
      cases later
      rw [joined] at enough ⊢
      rw [readItems, here.read fuel _ (by omega) (delimited_cons rfl _)]
      simp only [Option.bind_eq_bind, Option.bind_some]
      rw [skipBlanks_cons (by decide)]
      rfl
    · rw [joined_cons part last] at enough ⊢
      rw [List.length_append, List.length_cons] at enough
      rw [List.append_assoc, List.cons_append, readItems,
        here.read fuel _ (by omega) (delimited_cons rfl _)]
      simp only [Option.bind_eq_bind, Option.bind_some]
      have next := ih last (by omega : 2 * (joined parts).length + 1 ≤ fuel)
      rw [skipBlanks_cons (by decide)]
      simp only [next]
      rfl

theorem readValue_items {fuel : Nat} {text rest : List Char} {items : List Value}
    (plain : skipBlanks text = text) (more : ∀ rest, text ≠ ']' :: rest)
    (read : readItems fuel text = some (items, rest)) :
    readValue (fuel + 1) ('[' :: text) = some (.list items, rest) := by
  rw [readValue, skipBlanks_cons (by decide)]
  simp only [plain]
  rw [read]
  rfl

theorem readValue_members {fuel : Nat} {text rest : List Char} {members : Members}
    (plain : skipBlanks text = text) (more : ∀ rest, text ≠ '}' :: rest)
    (read : readMembers fuel text = some (members, rest)) :
    readValue (fuel + 1) ('{' :: text) = some (.map (Members.ofPairs members), rest) := by
  rw [readValue, skipBlanks_cons (by decide)]
  simp only [plain]
  rw [read]
  rfl

/-- Joined parts start as the first of them does. -/
theorem head?_joined {part : List Char} (h : part ≠ []) (parts : List (List Char))
    (rest : List Char) : (joined (part :: parts) ++ rest).head? = part.head? := by
  obtain ⟨first, more, rfl⟩ := List.exists_cons_of_ne_nil h
  cases parts <;> rfl

theorem readsAs_list {parts : List (List Char)} {items : List Value}
    (h : List.Forall₂ ReadsAs parts items) :
    ReadsAs ('[' :: joined parts ++ [']']) (.list items) := by
  refine ⟨by simp, ?_, fun fuel rest enough _ => ?_⟩
  · intro c hc
    obtain rfl := Option.some.inj hc
    decide
  · rw [List.length_append, List.length_cons, List.length_singleton] at enough
    obtain ⟨fuel, rfl⟩ := Nat.exists_eq_succ_of_ne_zero (by omega : fuel ≠ 0)
    have split : '[' :: joined parts ++ [']'] ++ rest = '[' :: (joined parts ++ ']' :: rest) := by
      rw [List.append_assoc]
      rfl
    rw [split]
    cases h with
    | nil => rfl
    | @cons part item parts items here later =>
      have read := readItems_joined (.cons here later) (by simp)
        (by omega : 2 * (joined (part :: parts)).length + 1 ≤ fuel) rest
      obtain ⟨first, more, rfl⟩ := List.exists_cons_of_ne_nil here.nonempty
      have start := head?_joined here.nonempty parts (']' :: rest)
      obtain ⟨tail, heq⟩ := List.head?_eq_some_iff.mp start
      have plain := here.start first rfl
      rw [heq] at read ⊢
      refine readValue_items (skipBlanks_cons ?_ tail) ?_ read
      · intro hmem
        exact plain (List.mem_append_left [']'] hmem)
      · intro rest hrest
        obtain rfl := (List.cons.inj hrest).1
        exact plain (by decide)

/-- The text of a member is its name between quotes, a colon and the text of its value. -/
def ReadsAsMember (text : List Char) (member : Value × Value) : Prop :=
  ∃ name value, text = encodeText name ++ ':' :: value ∧
    member.1 = .text (String.ofList name) ∧ ReadsAs value member.2

/-- Members between commas are read one by one up to the closing brace. -/
theorem readMembers_joined {parts : List (List Char)} {members : Members}
    (h : List.Forall₂ ReadsAsMember parts members) (nonempty : parts ≠ []) {fuel : Nat}
    (enough : 2 * (joined parts).length + 1 ≤ fuel) (rest : List Char) :
    readMembers fuel (joined parts ++ '}' :: rest) = some (members, rest) := by
  induction h generalizing fuel with
  | nil => exact (nonempty rfl).elim
  | @cons part member parts members here later ih =>
    obtain ⟨fuel, rfl⟩ := Nat.exists_eq_succ_of_ne_zero (by omega : fuel ≠ 0)
    obtain ⟨key, item⟩ := member
    obtain ⟨name, value, rfl, rfl, here⟩ := here
    have quoted : encodeText name ++ ':' :: value =
        '"' :: (name.flatMap encodeChar ++ '"' :: ':' :: value) := by
      simp [encodeText]
    have text : ∀ rest, readText ((name.flatMap encodeChar ++ '"' :: rest).length + 1)
        (name.flatMap encodeChar ++ '"' :: rest) = some (name, rest) := by
      intro rest
      refine readText_encodeText name rest ?_
      have := length_le_encodeText name
      rw [List.length_append]
      omega
    rw [quoted] at enough ⊢
    by_cases last : parts = []
    · subst last
      cases later
      rw [joined, List.length_cons, List.length_append, List.length_cons,
        List.length_cons] at enough
      have read := here.read fuel ('}' :: rest) (by omega) (delimited_cons rfl _)
      rw [joined, List.cons_append, List.append_assoc, List.cons_append, List.cons_append,
        readMembers, skipBlanks_cons (by decide)]
      simp only [text, Option.bind_eq_bind, Option.bind_some]
      rw [skipBlanks_cons (by decide)]
      simp only [read]
      rw [Option.bind_some, skipBlanks_cons (by decide)]
      rfl
    · rw [joined_cons _ last, List.length_append, List.length_cons, List.length_cons,
        List.length_append, List.length_cons, List.length_cons] at enough
      have read := here.read fuel (',' :: (joined parts ++ '}' :: rest)) (by omega)
        (delimited_cons rfl _)
      have next := ih last (by omega : 2 * (joined parts).length + 1 ≤ fuel)
      rw [joined_cons _ last, List.append_assoc, List.cons_append, List.append_assoc,
        List.cons_append, List.cons_append, List.cons_append, readMembers,
        skipBlanks_cons (by decide)]
      simp only [text, Option.bind_eq_bind, Option.bind_some]
      rw [skipBlanks_cons (by decide)]
      simp only [read]
      rw [Option.bind_some, skipBlanks_cons (by decide)]
      simp only [next]
      rfl

theorem readsAs_map {parts : List (List Char)} {members : Members}
    (h : List.Forall₂ ReadsAsMember parts members) :
    ReadsAs ('{' :: joined parts ++ ['}']) (.map (Members.ofPairs members)) := by
  refine ⟨by simp, ?_, fun fuel rest enough _ => ?_⟩
  · intro c hc
    obtain rfl := Option.some.inj hc
    decide
  · rw [List.length_append, List.length_cons, List.length_singleton] at enough
    obtain ⟨fuel, rfl⟩ := Nat.exists_eq_succ_of_ne_zero (by omega : fuel ≠ 0)
    have split : '{' :: joined parts ++ ['}'] ++ rest = '{' :: (joined parts ++ '}' :: rest) := by
      rw [List.append_assoc]
      rfl
    rw [split]
    cases h with
    | nil => rfl
    | @cons part member parts members here later =>
      have read := readMembers_joined (.cons here later) (by simp)
        (by omega : 2 * (joined (part :: parts)).length + 1 ≤ fuel) rest
      obtain ⟨name, value, rfl, -, -⟩ := here
      have quoted : encodeText name ++ ':' :: value ≠ [] := by simp [encodeText]
      have start := head?_joined quoted parts ('}' :: rest)
      obtain ⟨tail, heq⟩ := List.head?_eq_some_iff.mp start
      rw [heq] at read ⊢
      refine readValue_members (skipBlanks_cons (by decide) tail) ?_ read
      intro rest hrest
      exact absurd (List.cons.inj hrest).1 (by decide)

/-! ### Canonical texts -/

theorem encodeItems_eq_ok {items : List Value} {parts : List (List Char)}
    (h : encodeItems items = .ok parts) :
    List.Forall₂ (fun part item => encode item = .ok part) parts items := by
  induction items generalizing parts with
  | nil =>
    cases h
    exact .nil
  | cons item items ih =>
    rw [encodeItems] at h
    obtain ⟨part, hpart, h⟩ := bind_eq_ok.mp h
    obtain ⟨others, hothers, h⟩ := bind_eq_ok.mp h
    cases h
    exact .cons hpart (ih hothers)

theorem wireItems_eq_map (items : List Value) : wireItems items = items.map wire := by
  induction items with
  | nil => rfl
  | cons item items ih => rw [wireItems, ih, List.map_cons]

theorem encodeMembers_eq_map (members : Members) :
    encodeMembers members = members.map fun member => (member.1, encode member.2) := by
  induction members with
  | nil => rfl
  | cons member rest ih => rw [encodeMembers, ih, List.map_cons]

theorem wireMembers_eq_map (members : Members) :
    wireMembers members = members.map fun member => (member.1, wire member.2) := by
  induction members with
  | nil => rfl
  | cons member rest ih => rw [wireMembers, ih, List.map_cons]

/-- Members in the order of their keys, where all keys can be compared. -/
def sorted (members : Members) : Members :=
  Value.sortBy (fun x y => (Value.less? x.1 y.1).getD false) members

theorem mem_sorted {members : Members} {member : Value × Value} :
    member ∈ sorted members ↔ member ∈ members :=
  (Value.sortBy_perm _ members).mem_iff

/-- The order depends on the keys alone, whatever their values are. -/
theorem sortBy_map {α : Type} (f : Value → α) (members : Members) :
    Value.sortBy (fun x y => (Value.less? x.1 y.1).getD false)
      (members.map fun member => (member.1, f member.2)) =
      (sorted members).map fun member => (member.1, f member.2) := by
  have insert : ∀ (member : Value × Value) (rest : Members),
      Value.insertBy (fun x y => (Value.less? x.1 y.1).getD false) (member.1, f member.2)
        (rest.map fun member => (member.1, f member.2)) =
      (Value.insertBy (fun x y => (Value.less? x.1 y.1).getD false) member rest).map
        fun member => (member.1, f member.2) := by
    intro member rest
    induction rest with
    | nil => rfl
    | cons other rest ih =>
      rw [List.map_cons, Value.insertBy, Value.insertBy, ih]
      split <;> rfl
  induction members with
  | nil => rfl
  | cons member rest ih =>
    rw [List.map_cons, Value.sortBy, List.foldr_cons, ← Value.sortBy, ih, insert]
    rfl

theorem encodeEntries_eq_ok {entries : List (Value × Except Refusal (List Char))}
    {parts : List (List Char)} (h : encodeEntries entries = .ok parts) :
    List.Forall₂ (fun part entry => ∃ name value, keyText entry.1 = .ok name ∧
      entry.2 = .ok value ∧ part = encodeText name ++ ':' :: value) parts entries := by
  induction entries generalizing parts with
  | nil =>
    cases h
    exact .nil
  | cons entry rest ih =>
    obtain ⟨key, encoded⟩ := entry
    rw [encodeEntries] at h
    obtain ⟨name, hname, h⟩ := bind_eq_ok.mp h
    obtain ⟨value, hvalue, h⟩ := bind_eq_ok.mp h
    obtain ⟨others, hothers, h⟩ := bind_eq_ok.mp h
    cases h
    exact .cons ⟨name, value, hname, hvalue, rfl⟩ (ih hothers)

theorem encode_map_eq_ok {members : Members} {text : List Char}
    (h : encode (.map members) = .ok text) : ∃ parts,
    text = '{' :: joined parts ++ ['}'] ∧
    List.Forall₂ (fun part member => ∃ name value, keyText member.1 = .ok name ∧
      encode member.2 = .ok value ∧ part = encodeText name ++ ':' :: value) parts
      (sorted members) := by
  rw [encode] at h
  split at h
  · cases h
  · rename_i entries hentries
    obtain ⟨parts, hparts, h⟩ := bind_eq_ok.mp h
    cases h
    unfold Value.sortBy? at hentries
    split at hentries
    · cases hentries
      rw [encodeMembers_eq_map, sortBy_map] at hparts
      refine ⟨parts, rfl, ?_⟩
      exact List.forall₂_map_right_iff.mp (encodeEntries_eq_ok hparts)
    · cases hentries

theorem wire_map (members : Members) : wire (.map members) =
    .map (Members.ofPairs
      ((sorted members).map fun member => (wireKey member.1, wire member.2))) := by
  rw [wire, wireMembers_eq_map, sortBy_map, List.map_map]
  rfl

/-- The items of a list are read as they are on the wire if each of them is. -/
theorem readsAs_encodeItems {items : List Value} {parts : List (List Char)}
    (ih : ∀ item ∈ items, item.isRegular → ∀ {text}, encode item = .ok text →
      ReadsAs text (wire item))
    (regular : Value.areRegular items) (h : encodeItems items = .ok parts) :
    List.Forall₂ ReadsAs parts (wireItems items) := by
  have encoded := encodeItems_eq_ok h
  rw [wireItems_eq_map, List.forall₂_map_right_iff]
  refine List.forall₂_iff_zip.mpr ⟨encoded.length_eq, fun hzip => ?_⟩
  have hmem := (List.of_mem_zip hzip).2
  exact ih _ hmem (Value.areRegular_iff.mp regular _ hmem) (List.forall₂_zip encoded hzip)

/-- The canonical text of a value is read as the value on the wire, in front of any rest. -/
theorem readsAs_encode {value : Value} (regular : value.isRegular) {text : List Char}
    (h : encode value = .ok text) : ReadsAs text (wire value) := by
  induction value using Value.induction generalizing text with
  | leaf value hleaf =>
    cases value with
    | null => cases h; exact readsAs_null
    | bool value => cases h; exact readsAs_bool value
    | int value => exact readsAs_encodeInt h
    | float value =>
      cases h
      rw [Value.isRegular, Bool.and_eq_true, bne_iff_ne] at regular
      exact readsAs_encodeDouble regular.1 regular.2
    | text value =>
      cases h
      have read := readsAs_encodeText value.toList
      rwa [String.ofList_toList] at read
    | date value =>
      cases h
      have read := readsAs_encodeText value.text.toList
      rwa [String.ofList_toList] at read
    | moment value =>
      cases h
      have read := readsAs_encodeText value.text.toList
      rwa [String.ofList_toList] at read
    | bytes => cases h
    | _ => cases hleaf
  | list items ih =>
    rw [encode] at h
    obtain ⟨parts, hparts, h⟩ := bind_eq_ok.mp h
    cases h
    rw [wire]
    exact readsAs_list (readsAs_encodeItems ih regular hparts)
  | tuple items ih =>
    rw [encode] at h
    obtain ⟨parts, hparts, h⟩ := bind_eq_ok.mp h
    cases h
    rw [wire]
    exact readsAs_list (readsAs_encodeItems ih regular hparts)
  | set items => cases h
  | map members ih =>
    obtain ⟨parts, rfl, each⟩ := encode_map_eq_ok h
    rw [wire_map]
    refine readsAs_map (List.forall₂_map_right_iff.mpr ?_)
    refine List.forall₂_iff_zip.mpr ⟨each.length_eq, fun {part member} hzip => ?_⟩
    obtain ⟨name, value, hname, hvalue, rfl⟩ := List.forall₂_zip each hzip
    have hmem := mem_sorted.mp (List.of_mem_zip hzip).2
    have hregular := Value.areRegularIn_iff.mp regular _ hmem
    refine ⟨name, value, rfl, ?_, (ih _ hmem).2 hregular hvalue⟩
    rw [wireKey, hname]

/-- What is in the second of two related lists is related to something in the first. -/
theorem exists_of_mem_right {α β : Type} {R : α → β → Prop} {xs : List α} {ys : List β}
    (h : List.Forall₂ R xs ys) {y : β} (hy : y ∈ ys) : ∃ x ∈ xs, R x y := by
  induction h with
  | nil => cases hy
  | cons here _ ih =>
    rcases List.mem_cons.mp hy with rfl | later
    · exact ⟨_, List.mem_cons_self .., here⟩
    · obtain ⟨x, hx, there⟩ := ih later
      exact ⟨x, List.mem_cons_of_mem _ hx, there⟩

theorem isJson_wireItems {items : List Value} {parts : List (List Char)}
    (ih : ∀ item ∈ items, item.isRegular → ∀ {text}, encode item = .ok text →
      (wire item).isJson)
    (regular : Value.areRegular items) (h : encodeItems items = .ok parts) :
    (Value.list (wireItems items)).isJson := by
  rw [wireItems_eq_map, Value.isJson_list]
  intro wired hwired
  obtain ⟨item, hmem, rfl⟩ := List.mem_map.mp hwired
  obtain ⟨text, -, htext⟩ := exists_of_mem_right (encodeItems_eq_ok h) hmem
  exact ih item hmem (Value.areRegular_iff.mp regular item hmem) htext

/-- What is read back is a JSON value. -/
theorem isJson_wire {value : Value} (regular : value.isRegular) {text : List Char}
    (h : encode value = .ok text) : (wire value).isJson := by
  induction value using Value.induction generalizing text with
  | leaf value hleaf =>
    cases value with
    | float value =>
      rw [Value.isRegular, Bool.and_eq_true] at regular
      exact regular.1
    | bytes => cases h
    | null | bool | int | text | date | moment => rfl
    | _ => cases hleaf
  | list items ih =>
    rw [encode] at h
    obtain ⟨parts, hparts, -⟩ := bind_eq_ok.mp h
    exact isJson_wireItems ih regular hparts
  | tuple items ih =>
    rw [encode] at h
    obtain ⟨parts, hparts, -⟩ := bind_eq_ok.mp h
    exact isJson_wireItems ih regular hparts
  | set items => cases h
  | map members ih =>
    obtain ⟨parts, -, each⟩ := encode_map_eq_ok h
    rw [wire_map]
    refine Value.isJson_ofPairs fun pair hpair => ?_
    obtain ⟨member, hmember, rfl⟩ := List.mem_map.mp hpair
    obtain ⟨part, -, name, value, hname, hvalue, -⟩ := exists_of_mem_right each hmember
    have hmem := mem_sorted.mp hmember
    have hregular := Value.areRegularIn_iff.mp regular _ hmem
    refine ⟨String.ofList name, ?_, (ih _ hmem).2 hregular hvalue⟩
    rw [wireKey, hname]

/-- Reading the canonical text of a value gives the value on the wire. -/
theorem decode_encode {value : Value} (regular : value.isRegular) {text : List Char}
    (h : encode value = .ok text) : decode text = some (wire value) := by
  have read := (readsAs_encode regular h).read (2 * text.length + 2) [] (by omega) delimited_nil
  rw [List.append_nil] at read
  rw [decode, read]
  rfl

/-- Values with one canonical text are one value on the wire. -/
theorem wire_eq_of_encode_eq {x y : Value} (hx : x.isRegular) (hy : y.isRegular)
    {text : List Char} (htext : encode x = .ok text) (same : encode y = .ok text) :
    wire x = wire y := by
  have read := decode_encode hx htext
  rw [decode_encode hy same] at read
  exact (Option.some.inj read).symm

end Json

end Reconciler

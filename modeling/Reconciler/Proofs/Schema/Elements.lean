import Reconciler.Proofs.Schema.Undeclared
import Mathlib.Data.List.TakeDrop

/-!
# What the elements of a type are

The text of a type says of what type the elements are: a list is `list[T]`, and a mapping is
`dict(K, V)`. The texts of these forms are put together from their parts here, apart from the search
that takes them to pieces. Main statements: the search finds the type of the elements exactly of
these texts, and a type that is a model has no elements.
-/

namespace Reconciler.Schema

/-- A line of text may end with a mark for its end. -/
def IsLineEnd (ending : String) : Prop := ending = "" ∨ ending = "\n"

/-- The text of a type says of what type the elements are: those of a list `list[T]` are of type
`T`, and the values of a mapping `dict(K, V)` are of type `V`. -/
inductive HasElements : (type element : String) → Prop
  | list (element : String) {ending : String} (line : '\n' ∉ element.toList)
      (last : IsLineEnd ending) : HasElements ("list[" ++ element ++ "]" ++ ending) element
  | mapping (key element : String) {ending : String} (given : key ≠ "") (plain : ',' ∉ key.toList)
      (line : '\n' ∉ element.toList) (last : IsLineEnd ending) :
      HasElements ("dict(" ++ key ++ ", " ++ element ++ ")" ++ ending) element

variable {table : Table} {declared : Model} {type element : String}

/-! ### Taking texts to pieces -/

theorem after?_append (front : String) (rest : List Char) :
    after? front (front.toList ++ rest) = some rest := by
  rw [after?, if_pos (List.isPrefixOf_iff_prefix.mpr (List.prefix_append ..)),
    ← String.length_toList, List.drop_left]

theorem eq_append_of_after? {front : String} {text rest : List Char}
    (h : after? front text = some rest) : text = front.toList ++ rest := by
  unfold after? at h
  split at h
  · rename_i starts
    obtain ⟨tail, rfl⟩ := List.isPrefixOf_iff_prefix.mp starts
    rw [← String.length_toList, List.drop_left] at h
    rw [Option.some.inj h]
  · cases h

theorem after?_eq_none {front : String} {c : Char} (first : front.toList.head? = some c)
    {text : List Char} (other : text.head? ≠ some c) : after? front text = none := by
  refine Option.eq_none_iff_forall_ne_some.mpr fun rest h => other ?_
  rw [eq_append_of_after? h, List.head?_append, first]
  rfl

theorem beforeMark?_append {mark : Char} (notEnd : mark ≠ '\n') {inner : List Char}
    (given : inner ≠ []) (line : '\n' ∉ inner) {ending : String} (last : IsLineEnd ending) :
    beforeMark? mark (inner ++ mark :: ending.toList) = some inner := by
  rcases last with rfl | rfl
  · simp [beforeMark?, notEnd, given, line]
  · simp [beforeMark?, given, line]

theorem eq_append_of_beforeMark? {mark : Char} {text inner : List Char}
    (h : beforeMark? mark text = some inner) : '\n' ∉ inner ∧
      ∃ ending, IsLineEnd ending ∧ text = inner ++ mark :: ending.toList := by
  unfold beforeMark? at h
  dsimp only at h
  split at h
  · rename_i last reversed hreversed
    split at h
    · rename_i marked
      obtain rfl := Option.some.inj h
      simp only [Bool.and_eq_true, decide_eq_true_eq, Bool.not_eq_true', List.isEmpty_eq_false_iff,
        List.contains_eq_mem, decide_eq_false_iff_not] at marked
      obtain ⟨⟨rfl, -⟩, line⟩ := marked
      refine ⟨by simpa using line, ?_⟩
      split at hreversed
      · -- The line end that the text has was dropped.
        rename_i ended
        obtain ⟨rest, hrest⟩ := List.head?_eq_some_iff.mp ended
        rw [hrest, List.drop_one, List.tail_cons] at hreversed
        refine ⟨"\n", .inr rfl, ?_⟩
        rw [← List.reverse_reverse text, hrest, hreversed]
        simp
      · refine ⟨"", .inl rfl, ?_⟩
        rw [← List.reverse_reverse text, hreversed]
        simp
    · cases h
  · cases h

/-! ### The search for the elements -/

theorem listElement?_append {element : String} (given : element ≠ "")
    (line : '\n' ∉ element.toList) {ending : String} (last : IsLineEnd ending) :
    listElement? ("list[" ++ element ++ "]" ++ ending).toList = some element.toList := by
  have text : ("list[" ++ element ++ "]" ++ ending).toList =
      "list[".toList ++ (element.toList ++ ']' :: ending.toList) := by
    simp
  rw [listElement?, text, after?_append, Option.bind_some]
  exact beforeMark?_append (by decide) (mt String.toList_eq_nil_iff.mp given) line last

theorem mapElement?_eq (type : List Char) : mapElement? type =
    (after? "dict(" type).bind fun inside =>
      if (inside.takeWhile (· != ',')).isEmpty then none
      else (after? ", " (inside.dropWhile (· != ','))).bind (beforeMark? ')') := by
  rw [mapElement?]
  cases after? "dict(" type with
  | none => rfl
  | some inside =>
    simp only [Option.bind_eq_bind, Option.bind_some, List.span_eq_takeWhile_dropWhile]

theorem mapElement?_append {key element : String} (named : key ≠ "") (plain : ',' ∉ key.toList)
    (given : element ≠ "") (line : '\n' ∉ element.toList) {ending : String}
    (last : IsLineEnd ending) :
    mapElement? ("dict(" ++ key ++ ", " ++ element ++ ")" ++ ending).toList =
      some element.toList := by
  have text : ("dict(" ++ key ++ ", " ++ element ++ ")" ++ ending).toList = "dict(".toList ++
      (key.toList ++ (", ".toList ++ (element.toList ++ ')' :: ending.toList))) := by
    simp
  have first (rest : List Char) : (", ".toList ++ rest).takeWhile (· != ',') = [] := rfl
  have second (rest : List Char) :
      (", ".toList ++ rest).dropWhile (· != ',') = ", ".toList ++ rest := rfl
  have other : ∀ c ∈ key.toList, (c != ',') = true := fun c hc =>
    bne_iff_ne.mpr fun same => plain (same ▸ hc)
  have filled : key.toList.isEmpty = false :=
    List.isEmpty_eq_false_iff.mpr (mt String.toList_eq_nil_iff.mp named)
  rw [mapElement?_eq, text, after?_append, Option.bind_some, List.takeWhile_append_of_pos other,
    List.dropWhile_append_of_pos other, first, second, List.append_nil, filled,
    if_neg Bool.false_ne_true, after?_append, Option.bind_some]
  exact beforeMark?_append (by decide) (mt String.toList_eq_nil_iff.mp given) line last

/-- The search for the type of the elements finds what the text of a type says. -/
theorem HasElements.elementType_eq (h : HasElements type element) (given : element ≠ "") :
    elementType (some type) = some element := by
  rw [elementType, Option.bind_some]
  cases h with
  | list _ line last =>
    rw [listElement?_append given line last, Option.some_or, Option.map_some, String.ofList_toList]
  | @mapping key _ ending named plain line last =>
    have notList :
        listElement? ("dict(" ++ key ++ ", " ++ element ++ ")" ++ ending).toList = none := by
      rw [listElement?, after?_eq_none (c := 'l') rfl (by simp)]
      rfl
    rw [notList, Option.none_or, mapElement?_append named plain given line last, Option.map_some,
      String.ofList_toList]

theorem hasElements_of_elementType (h : elementType (some type) = some element) :
    HasElements type element := by
  rw [elementType, Option.bind_some] at h
  obtain ⟨inner, found, rfl⟩ := Option.map_eq_some_iff.mp h
  rcases Option.or_eq_some_iff.mp found with isList | ⟨-, isMap⟩
  · obtain ⟨rest, starts, marked⟩ := Option.bind_eq_some_iff.mp isList
    obtain ⟨line, ending, last, rfl⟩ := eq_append_of_beforeMark? marked
    have text : type = "list[" ++ String.ofList inner ++ "]" ++ ending := by
      refine String.toList_injective ?_
      rw [eq_append_of_after? starts]
      simp
    rw [text]
    exact .list _ (by simpa using line) last
  · rw [mapElement?_eq] at isMap
    obtain ⟨inside, starts, isMap⟩ := Option.bind_eq_some_iff.mp isMap
    split at isMap
    · cases isMap
    · rename_i filled
      obtain ⟨rest, comma, marked⟩ := Option.bind_eq_some_iff.mp isMap
      obtain ⟨line, ending, last, rfl⟩ := eq_append_of_beforeMark? marked
      have whole : inside.takeWhile (· != ',') ++ (", ".toList ++ (inner ++ ')' :: ending.toList)) =
          inside := by
        rw [← eq_append_of_after? comma, List.takeWhile_append_dropWhile]
      have plain : ',' ∉ inside.takeWhile (· != ',') := fun mem => by
        simpa using List.all_eq_true.mp List.all_takeWhile ',' mem
      generalize inside.takeWhile (· != ',') = key at filled whole plain
      have text : type = "dict(" ++ String.ofList key ++ ", " ++ String.ofList inner ++ ")" ++
          ending := by
        refine String.toList_injective ?_
        rw [eq_append_of_after? starts, ← whole]
        simp
      rw [text]
      refine .mapping _ _ (fun none => filled ?_) (by simpa using plain) (by simpa using line) last
      simpa using none

/-! ### Models and elements -/

theorem isUpper_of_model (typed : table.model? type = some declared) :
    type.toList.head?.any Char.isUpper := by
  have name : declared.name = type := by simpa using List.find?_some typed
  have upper := (Bool.and_eq_true_iff.mp (Table.isNamed_of_model? typed)).1
  rwa [name, String.front?_eq] at upper

/-- A type that is a model has no elements. -/
theorem elementType_of_model (typed : table.model? type = some declared) :
    elementType (some type) = none := by
  have upper := isUpper_of_model typed
  refine Option.eq_none_iff_forall_ne_some.mpr fun element h => ?_
  cases hasElements_of_elementType h with
  | list | mapping => simp at upper

theorem ne_empty_of_model (typed : table.model? type = some declared) : type ≠ "" := by
  rintro rfl
  cases isUpper_of_model typed

end Reconciler.Schema

import Reconciler.Patch.Decision
import Reconciler.Proofs.Json.Reading
import Reconciler.Proofs.Patch.Merge
import Reconciler.Proofs.Value.Names

/-!
# When nothing is sent for an object without a model

A merge patch between two objects is empty exactly if they are equal as document values,
where a truth value counts as a number and a whole number equals the floating-point number
of its value. So an object of a kind without a model is left alone exactly if what its two
canonical texts spell is equal in this sense.

JSON itself tells such numbers apart, which is what `Value.isSame` does. Objects that are the
same in this stricter sense are left alone, but not only those.
-/

namespace Reconciler

namespace Value

mutual

/-- Whether two JSON values are the same but for the order of members. Truth values, whole
numbers and floating-point numbers are different values, whatever number they stand for. -/
def isSame : Value → Value → Bool
  | .null, .null => true
  | .bool x, .bool y => x == y
  | .int x, .int y => x == y
  | .float x, .float y => x == y
  | .text x, .text y => x == y
  | .list xs, .list ys => areSame xs ys
  | .map xs, .map ys => areSameIn xs ys && ys.all fun y => Members.has xs y.1
  | _, _ => false
termination_by structural x => x

/-- Whether two lists have the same items in the same order. -/
def areSame : List Value → List Value → Bool
  | [], [] => true
  | x :: xs, y :: ys => isSame x y && areSame xs ys
  | _, _ => false
termination_by structural xs => xs

/-- Whether the second object has the same value at every key of the first. -/
def areSameIn : Members → Members → Bool
  | [], _ => true
  | (key, value) :: rest, ys =>
    (Members.at? ys key).any (fun other => isSame value other) && areSameIn rest ys
termination_by structural xs => xs

end

theorem areSameIn_iff {xs ys : Members} : areSameIn xs ys = true ↔
    ∀ member ∈ xs, ∃ other, ys.at? member.1 = some other ∧ isSame member.2 other = true := by
  induction xs with
  | nil => simp [areSameIn]
  | cons member rest ih =>
    obtain ⟨key, value⟩ := member
    rw [areSameIn, Bool.and_eq_true, Option.any_eq_true, ih, List.forall_mem_cons]

theorem listsEqual_of_areSame {xs ys : List Value}
    (items : ∀ x ∈ xs, ∀ y ∈ ys, isSame x y = true → equalWithin false x y = true)
    (h : areSame xs ys = true) : listsEqual false xs ys = true := by
  induction xs generalizing ys with
  | nil => cases ys <;> simp_all [areSame]
  | cons x xs ih =>
    cases ys with
    | nil => simp [areSame] at h
    | cons y ys =>
      rw [areSame, Bool.and_eq_true] at h
      rw [listsEqual_cons, Bool.and_eq_true]
      refine ⟨items x (by simp) y (by simp) h.1, ih (fun x hx y hy => ?_) h.2⟩
      exact items x (List.mem_cons_of_mem _ hx) y (List.mem_cons_of_mem _ hy)

/-- Objects with text keys are the same if they have the same values at each name. -/
theorem isSame_map_iff {xs ys : Members} (hx : xs.isNamed) (hy : ys.isNamed) :
    isSame (.map xs) (.map ys) = true ↔
      ∀ name, Option.Rel (fun x y => isSame x y = true) (xs.field? name) (ys.field? name) := by
  rw [isSame, Bool.and_eq_true, areSameIn_iff, List.all_eq_true]
  constructor
  · rintro ⟨there, back⟩ name
    cases hfirst : xs.field? name with
    | some x =>
      obtain ⟨y, hsecond, same⟩ := there _ (Members.mem_of_field? hfirst)
      rw [Members.field?, hsecond]
      exact .some same
    | none =>
      cases hsecond : ys.field? name with
      | none => exact .none
      | some y =>
        have present := back _ (Members.mem_of_field? hsecond)
        rw [Members.has_text, hfirst] at present
        cases present
  · intro rel
    refine ⟨fun member hmem => ?_, fun member hmem => ?_⟩
    · obtain ⟨name, x, rfl, here⟩ := Members.exists_name_of_mem hx hmem
      obtain ⟨present, same⟩ := rel_iff.mp (rel name)
      obtain ⟨y, hsecond⟩ := Option.isSome_iff_exists.mp (present.symm.trans (by rw [here]; rfl))
      exact ⟨y, hsecond, same x y here hsecond⟩
    · obtain ⟨name, y, rfl, here⟩ := Members.exists_name_of_mem hy hmem
      rw [Members.has_text, (rel_iff.mp (rel name)).1, here]
      rfl

/-- A value that is no collection is the same as itself alone. -/
theorem isSame_iff_of_isLeaf {x y : Value} (json : x.isJson) (leaf : x.isLeaf) :
    isSame x y = true ↔ x = y := by
  cases x with
  | list | tuple | set | map => cases leaf
  | date | moment | bytes => simp [isJson] at json
  | _ => cases y <;> simp [isSame]

/-- The same JSON values are equal. -/
theorem equalWithin_of_isSame {x y : Value} (hx : x.isJson) (hy : y.isJson)
    (h : isSame x y = true) : equalWithin false x y = true := by
  induction x using Value.induction generalizing y with
  | leaf x hleaf =>
    obtain rfl := (isSame_iff_of_isLeaf hx hleaf).mp h
    exact equalWithin_self false hx
  | list xs ih =>
    cases y with
    | list ys =>
      rw [isSame] at h
      rw [equalWithin]
      refine listsEqual_of_areSame (fun x hmem y hmem' => ?_) h
      exact ih x hmem (isJson_list.mp hx x hmem) (isJson_list.mp hy y hmem')
    | _ => simp [isSame] at h
  | tuple items => exact (not_isJson_tuple hx).elim
  | set items => exact (not_isJson_set hx).elim
  | map xs ih =>
    cases y with
    | map ys =>
      obtain ⟨namedX, valuesX⟩ := isJson_map.mp hx
      obtain ⟨namedY, valuesY⟩ := isJson_map.mp hy
      rw [equalWithin_map_iff namedX namedY]
      intro name
      refine rel_iff.mpr ?_
      obtain ⟨present, same⟩ := rel_iff.mp ((isSame_map_iff namedX namedY).mp h name)
      refine ⟨present, fun x y hfirst hsecond => ?_⟩
      have hmem := Members.mem_of_field? hfirst
      exact (ih _ hmem).2 (valuesX _ hmem) (valuesY _ (Members.mem_of_field? hsecond))
        (same x y hfirst hsecond)
    | _ => simp [isSame] at h

end Value

namespace Patch

theorem nested?_eq_none_iff {patch : Members} : nested? patch = none ↔ patch = [] := by
  unfold nested?
  split
  · rename_i empty
    exact iff_of_true rfl (List.isEmpty_iff.mp empty)
  · rename_i filled
    exact iff_of_false (Option.some_ne_none _) fun heq => filled (heq ▸ rfl)

namespace Merge

variable {shared : Bool} {before after : Members}

/-- The patch between two objects is empty if nothing is said at a name that both have, and
no name is one of one object only. -/
theorem diff_eq_nil_iff_of_names (hb : before.isNamed) (ha : after.isNamed) :
    diff shared before after = [] ↔
      ∀ name, Option.Rel (fun old value => change shared old value = none)
        (before.field? name) (after.field? name) := by
  rw [Members.eq_nil_iff (isNamed_diff hb ha)]
  refine forall_congr' fun name => ?_
  rw [field?_diff ha]
  cases before.field? name <;> cases after.field? name <;> simp

/-- Nothing is said of a member exactly if its values are equal. -/
theorem change_eq_none_iff {old value : Value} (hold : old.isJson) (h : value.isJson) :
    change shared old value = none ↔ old.equal shared value = true := by
  induction value using Value.induction generalizing old with
  | map after ih =>
    obtain ⟨named, values⟩ := Value.isJson_map.mp h
    by_cases hmap : ∃ before : Members, old = .map before
    · obtain ⟨before, rfl⟩ := hmap
      have hb := (Value.isJson_map.mp hold).1
      rw [change, ← diff, nested?_eq_none_iff, diff_eq_nil_iff_of_names hb named,
        Value.equal_eq_equalWithin shared hold, Value.equalWithin_map_iff hb named]
      refine forall_congr' fun name => ?_
      cases hbefore : before.field? name with
      | none => cases after.field? name <;> simp
      | some old =>
        cases hafter : after.field? name with
        | none => simp
        | some value =>
          have json := Value.isJson_of_field? hold hbefore
          have hmem := Members.mem_of_field? hafter
          rw [Option.rel_some_some, Option.rel_some_some, (ih _ hmem).2 json (values _ hmem),
            Value.equal_eq_equalWithin shared json]
    · have differ : old.equal shared (.map after) ≠ true := by
        intro heq
        obtain ⟨before, hbefore⟩ := Value.equalWithin_map_left
          (Value.equalWithin_symm (Value.equalWithin_of_equal heq))
        exact hmap ⟨before, hbefore⟩
      rw [change]
      · simp [differ]
      · exact fun before hbefore => hmap ⟨before, hbefore⟩
  | leaf value hleaf =>
    rw [change]
    · simp
    · rintro _ rfl
      cases hleaf
  | list items =>
    rw [change]
    · simp
    · intro _ heq
      cases heq
  | tuple items => exact (Value.not_isJson_tuple h).elim
  | set items => exact (Value.not_isJson_set h).elim

theorem diff_eq_nil_iff (hb : (Value.map before).isJson) (ha : (Value.map after).isJson) :
    diff shared before after = [] ↔ (Value.map before).equal shared (.map after) = true := by
  rw [← change_eq_none_iff hb ha, change, ← diff, nested?_eq_none_iff]

end Merge

/-! ### What is decided -/

/-- A patch whose keys are text is recorded, and an empty one as none. -/
theorem exists_record {patch : Members} (named : patch.isNamed) :
    ∃ recorded, record patch = .ok recorded ∧ (recorded.isNone ↔ patch = []) := by
  unfold record
  by_cases empty : patch = []
  · subst empty
    exact ⟨none, rfl, by simp⟩
  · have text : (patch.all fun member => member.1.typeName == "str") = true := by
      rw [List.all_eq_true]
      intro member hmem
      obtain ⟨name, hname⟩ := Members.key_of_mem named hmem
      rw [hname]
      rfl
    refine ⟨some patch, ?_, by simp [empty]⟩
    rw [if_neg (by simpa using empty), if_pos text]

variable {current desired : Value} {before after : List Char} {info : Schema.KindInfo}

/-- Two values that have canonical texts are compared by them, and only if these differ by
a patch. -/
theorem between_eq (encodedBefore : Json.encode current = .ok before)
    (encodedAfter : Json.encode desired = .ok after)
    (lookup : Schema.lookupObject desired = .ok info) :
    Decision.between current desired =
      if before == after then .ok { patch := none, strategy := strategyFor info.model }
      else do
        let patch ← match strategyFor info.model with
          | .merge => liftFault (mergePatch true (Json.wire current) (Json.wire desired))
          | .strategic =>
            strategicPatch true info.model (Json.wire current) (Json.wire desired)
        let patch ← record patch
        return { patch, strategy := strategyFor info.model } := by
  rw [Decision.between, canonicalText, canonicalText, encodedBefore, encodedAfter, lookup]
  rfl

/-- The merge patch between two JSON objects is recorded as none exactly if they are equal. -/
theorem exists_record_mergePatch {old new : Members} (hold : (Value.map old).isJson)
    (hnew : (Value.map new).isJson) : ∃ patch recorded,
    mergePatch true (.map old) (.map new) = .ok patch ∧ record patch = .ok recorded ∧
      (recorded.isNone ↔ (Value.map old).equal false (.map new) = true) := by
  have named : (Merge.diff true old new).isNamed :=
    Merge.isNamed_diff (Value.isJson_map.mp hold).1 (Value.isJson_map.mp hnew).1
  obtain ⟨recorded, hrecord, none_iff⟩ := exists_record named
  refine ⟨_, recorded, rfl, hrecord, ?_⟩
  rw [none_iff, Merge.diff_eq_nil_iff hold hnew]
  exact ⟨Value.equal_of_equal_shared hold, fun h => Value.equal_shared h true⟩

/-- Between two objects of a kind without a model a decision is always reached, and it is
empty exactly if the objects are equal on the wire. -/
theorem exists_between {current desired : Members}
    (regularBefore : (Value.map current).isRegular) (regularAfter : (Value.map desired).isRegular)
    (encodedBefore : Json.encode (.map current) = .ok before)
    (encodedAfter : Json.encode (.map desired) = .ok after)
    (lookup : Schema.lookupObject (.map desired) = .ok info)
    (unmodelled : Schema.builtin.modelOf info.model = none) :
    ∃ decision, Decision.between (.map current) (.map desired) = .ok decision ∧
      (decision.isEmpty = true ↔
        (Json.wire (.map current)).equal false (Json.wire (.map desired)) = true) := by
  have jsonBefore := Json.isJson_wire regularBefore encodedBefore
  have jsonAfter := Json.isJson_wire regularAfter encodedAfter
  have merges : strategyFor info.model = .merge := by
    rw [strategyFor, unmodelled]
    rfl
  rw [between_eq encodedBefore encodedAfter lookup, merges]
  by_cases same : before = after
  · subst same
    rw [if_pos (beq_self_eq_true before),
      Json.wire_eq_of_encode_eq regularBefore regularAfter encodedBefore encodedAfter]
    exact ⟨_, rfl, iff_of_true rfl (Value.equal_self false jsonAfter)⟩
  · rw [if_neg (by simpa using same)]
    rw [Json.wire_map] at jsonBefore jsonAfter ⊢
    rw [Json.wire_map]
    obtain ⟨patch, recorded, hpatch, hrecord, empty⟩ :=
      exists_record_mergePatch jsonBefore jsonAfter
    refine ⟨⟨recorded, .merge⟩, bind_eq_ok.mpr ⟨patch, ?_, bind_eq_ok.mpr ?_⟩, empty⟩
    · rw [hpatch, liftFault_ok]
    · exact ⟨recorded, hrecord, rfl⟩

/-- The decision between two objects of a kind without a model is empty exactly if what their
canonical texts spell is equal, and so it is if that is the same. -/
theorem isEmpty_between_iff_equal {current desired : Members}
    (regularBefore : (Value.map current).isRegular) (regularAfter : (Value.map desired).isRegular)
    (encodedBefore : Json.encode (.map current) = .ok before)
    (encodedAfter : Json.encode (.map desired) = .ok after)
    (lookup : Schema.lookupObject (.map desired) = .ok info)
    (unmodelled : Schema.builtin.modelOf info.model = none) :
    ∃ old new decision, Json.decode before = some old ∧ Json.decode after = some new ∧
      Decision.between (.map current) (.map desired) = .ok decision ∧
      (decision.isEmpty = true ↔ old.equal false new = true) ∧
      (old.isSame new = true → decision.isEmpty = true) := by
  have jsonBefore := Json.isJson_wire regularBefore encodedBefore
  have jsonAfter := Json.isJson_wire regularAfter encodedAfter
  obtain ⟨decision, hdecision, empty⟩ := exists_between regularBefore regularAfter encodedBefore
    encodedAfter lookup unmodelled
  refine ⟨_, _, decision, Json.decode_encode regularBefore encodedBefore,
    Json.decode_encode regularAfter encodedAfter, hdecision, empty, fun same => ?_⟩
  rw [empty, Value.equal_eq_equalWithin false jsonBefore]
  exact Value.equalWithin_of_isSame jsonBefore jsonAfter same

/-- An object of a kind that has no model, with one setting. -/
def widget (enabled : Value) : Members := [
  (.text "apiVersion", .text "example.com/v1"),
  (.text "kind", .text "Widget"),
  (.text "metadata", .map [(.text "name", .text "w")]),
  (.text "spec", .map [(.text "enabled", enabled)])]

theorem lookup_widget (enabled : Value) :
    Schema.lookupObject (.map (widget enabled)) = .ok .unsupported := by
  rfl

theorem isEmpty_between_widgets : ∃ before after old new decision,
    Json.encode (.map (widget (.int 1))) = .ok before ∧
    Json.encode (.map (widget (.float (Double.nearest false 3 2)))) = .ok after ∧
    Json.decode before = some old ∧ Json.decode after = some new ∧
    Decision.between (.map (widget (.int 1)))
      (.map (widget (.float (Double.nearest false 3 2)))) = .ok decision ∧
    (decision.isEmpty = true ↔ old.equal false new = true) ∧
    (old.isSame new = true → decision.isEmpty = true) := by
  obtain ⟨before, hbefore⟩ := exists_of_isOk (by decide +kernel :
    (Json.encode (.map (widget (.int 1)))).isOk)
  obtain ⟨after, hafter⟩ := exists_of_isOk (by decide +kernel :
    (Json.encode (.map (widget (.float (Double.nearest false 3 2))))).isOk)
  obtain ⟨old, new, decision, result⟩ := isEmpty_between_iff_equal (by decide +kernel)
    (by decide +kernel) hbefore hafter (lookup_widget _) rfl
  exact ⟨before, after, old, new, decision, hbefore, hafter, result⟩

/-- One and the truth value are different JSON values, but nothing is sent to turn one into
the other. -/
theorem number_hides_truth_value : ∃ before after old new decision,
    Json.encode (.map (widget (.int 1))) = .ok before ∧
    Json.encode (.map (widget (.bool true))) = .ok after ∧
    Json.decode before = some old ∧ Json.decode after = some new ∧
    Decision.between (.map (widget (.int 1))) (.map (widget (.bool true))) = .ok decision ∧
    decision.isEmpty = true ∧ old.isSame new = false := by
  have regularBefore : (Value.map (widget (.int 1))).isRegular := by decide +kernel
  have regularAfter : (Value.map (widget (.bool true))).isRegular := by decide +kernel
  obtain ⟨before, hbefore⟩ := exists_of_isOk (by decide +kernel :
    (Json.encode (.map (widget (.int 1)))).isOk)
  obtain ⟨after, hafter⟩ := exists_of_isOk (by decide +kernel :
    (Json.encode (.map (widget (.bool true)))).isOk)
  obtain ⟨decision, hdecision, empty⟩ := exists_between regularBefore regularAfter hbefore hafter
    (lookup_widget _) rfl
  refine ⟨before, after, _, _, decision, hbefore, hafter,
    Json.decode_encode regularBefore hbefore, Json.decode_encode regularAfter hafter, hdecision,
    empty.mpr ?_, ?_⟩
  · decide +kernel
  · decide +kernel

end Patch

end Reconciler

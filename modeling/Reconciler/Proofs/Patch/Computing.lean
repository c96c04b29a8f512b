import Reconciler.Proofs.Json.Reading
import Reconciler.Proofs.Patch.Failing
import Reconciler.Proofs.Patch.Strategic
import Reconciler.Proofs.Patch.Unchanged
import Reconciler.Proofs.Schema.Undeclared

/-!
# When a patch can be computed

Two bodies are compared by what their canonical texts spell, and there all keys of mappings are
text. So merge patches can always be computed, and be recorded. A strategic patch looks up the
elements of lists that are merged by their keys. An element that has no key is refused as one that
cannot be encoded; a key that cannot be looked up, a list or a mapping, is met with a fault. Main
statement: if there are no such keys, two bodies are compared or one of them cannot be encoded.
-/

namespace Reconciler

namespace Members

theorem isNamed_ofPairs {pairs : List (Value × Value)}
    (h : ∀ pair ∈ pairs, ∃ name, pair.1 = .text name) : isNamed (ofPairs pairs) := by
  have step : ∀ members : Members, members.isNamed →
      isNamed (pairs.foldl (fun members pair => put members pair.1 pair.2) members) := by
    induction pairs with
    | nil => exact fun _ named => named
    | cons pair rest ih =>
      intro members named
      obtain ⟨⟨name, hname⟩, hrest⟩ := List.forall_mem_cons.mp h
      rw [List.foldl_cons, hname]
      exact ih hrest _ (isNamed_put named name pair.2)
  exact step [] rfl

end Members

/-- What is read back of a mapping that can be encoded is one with text keys. -/
theorem Json.exists_wire_map {members : Members} {text : List Char}
    (h : encode (.map members) = .ok text) :
    ∃ wired : Members, wire (.map members) = .map wired ∧ wired.isNamed := by
  obtain ⟨parts, -, each⟩ := encode_map_eq_ok h
  refine ⟨_, wire_map members, Members.isNamed_ofPairs fun pair hpair => ?_⟩
  obtain ⟨member, hmember, rfl⟩ := List.mem_map.mp hpair
  obtain ⟨part, -, name, value, hname, -⟩ := exists_of_mem_right each hmember
  exact ⟨String.ofList name, by rw [wireKey, hname]⟩

namespace Patch

/-- Whether the keys of elements can be looked up, where they are there. -/
def haveUsableKeys (mergeKey : String) (elements : List Value) : Bool :=
  elements.all fun element => (element.members.field? mergeKey).all Value.isKey

/-- Two bodies between which a patch can be computed: the kind is text, and so is its API version,
and the keys of all elements of lists that are merged can be looked up. -/
structure IsComparable (current desired : Members) : Prop where
  version : ((Value.map desired).field "apiVersion").isTextIfPresent
  kind : ((Value.map desired).field "kind").isTextIfPresent
  keys : ∀ info, Schema.lookupObject (.map desired) = .ok info →
    everyMerged haveUsableKeys { model := info.model } (Json.wire (.map current)) ∧
      everyMerged haveUsableKeys { model := info.model } (Json.wire (.map desired))

variable {current desired : Members} {failure : Failure}

/-- Elements whose keys can be looked up are refused only if they have none. -/
theorem refusedFor_isEncoding : RefusedFor haveUsableKeys Failure.IsEncoding := by
  intro field mergeKey elements failure usable h
  induction elements with
  | nil => cases h
  | cons element rest ih =>
    rw [haveUsableKeys, List.all_cons, Bool.and_eq_true] at usable
    rw [elementKeys] at h
    rcases bind_eq_error.mp h with hkey | ⟨key, -, h⟩
    · unfold elementKey at hkey
      split at hkey
      · split at hkey
        · rename_i members found hfound
          rw [Value.members_map, hfound, Option.all_some] at usable
          rw [if_pos usable.1] at hkey
          cases hkey
        · cases hkey
          exact Failure.isEncoding_problem rfl
      · cases hkey
        exact Failure.isEncoding_problem rfl
    · rcases bind_eq_error.mp h with hrest | ⟨keys, -, h⟩
      · exact ih usable.2 hrest
      · cases h

theorem isEncoding_of_canonicalText {value : Value} (h : canonicalText value = .error failure) :
    failure.IsEncoding := by
  unfold canonicalText at h
  cases hencode : Json.encode value with
  | ok text =>
    rw [hencode] at h
    cases h
  | error refusal =>
    rw [hencode] at h
    cases h
    exact Failure.isEncoding_problem rfl

theorem exists_encode_of_canonicalText {value : Value} {text : List Char}
    (h : canonicalText value = .ok text) : Json.encode value = .ok text := by
  unfold canonicalText at h
  cases hencode : Json.encode value with
  | ok found =>
    rw [hencode] at h
    cases h
    rfl
  | error refusal =>
    rw [hencode] at h
    cases h

/-- Two bodies are compared, or one of them cannot be encoded. -/
theorem IsComparable.isEncoding_of_between (comparable : IsComparable current desired)
    (h : Decision.between (.map current) (.map desired) = .error failure) :
    failure.IsEncoding := by
  obtain ⟨info, hinfo⟩ := Schema.exists_lookup
    (Value.isTextOrAbsent_of_isTextIfPresent comparable.version)
    (Value.isTextOrAbsent_of_isTextIfPresent comparable.kind)
  rw [← Schema.lookupObject_eq rfl] at hinfo
  cases hbefore : canonicalText (.map current) with
  | error refusal =>
    rw [Decision.between, hbefore] at h
    cases h
    exact isEncoding_of_canonicalText hbefore
  | ok before =>
    cases hafter : canonicalText (.map desired) with
    | error refusal =>
      rw [Decision.between, hbefore, hafter] at h
      cases h
      exact isEncoding_of_canonicalText hafter
    | ok after =>
      have encodedBefore := exists_encode_of_canonicalText hbefore
      have encodedAfter := exists_encode_of_canonicalText hafter
      obtain ⟨old, hold, namedOld⟩ := Json.exists_wire_map encodedBefore
      obtain ⟨new, hnew, namedNew⟩ := Json.exists_wire_map encodedAfter
      obtain ⟨usableOld, usableNew⟩ := comparable.keys info hinfo
      rw [hold, everyMerged] at usableOld
      rw [hnew, everyMerged] at usableNew
      rw [between_eq encodedBefore encodedAfter hinfo, hold, hnew] at h
      have recorded {patch : Members} (named : patch.isNamed) : (do
          let patch ← record patch
          return { patch, strategy := strategyFor info.model } : Except Failure Decision) ≠
            .error failure := by
        obtain ⟨found, hfound, -⟩ := exists_record named
        rw [hfound]
        intro heq
        cases heq
      split at h
      · cases h
      · split at h
        · exact absurd h (recorded (Merge.isNamed_diff namedOld namedNew))
        · rcases bind_eq_error.mp h with hdiff | ⟨patch, hdiff, h⟩
          · exact Strategic.reason_of_diff refusedFor_isEncoding usableOld usableNew hdiff
          · exact absurd h (recorded (Strategic.diff_eq_ok namedOld namedNew hdiff).1)

end Patch

end Reconciler

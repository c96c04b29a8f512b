import Reconciler.Proofs.Cluster.Parallel
import Reconciler.Proofs.Schema.Selecting
import Reconciler.Proofs.Value.Names
import Reconciler.Proofs.Value.Sorting

/-!
# Selectors as text

The text of a selector says neither more nor less than the selector does. Its labels can be put
in order in one way only, so it does not matter in which order they were written; and what is
read from the text is these labels again, so selectors with one text have the same labels. For
this no key may have a comma or an equals sign, and no value a comma. A value with an equals
sign does no harm.

Main statement: what the text says, when two selectors have one text, and which objects the
server lists by it.
-/

namespace Reconciler.Schema

open Cluster (State)

variable {labels others : Members}

/-- A selector that text can tell from all others: it has labels, their keys differ, and each of
them can be required by text. -/
structure IsTellable (labels : Members) : Prop where
  nonempty : labels ≠ []
  named : labels.isNamed
  requirable : ∀ label ∈ labels, isRequirable label

/-- Labels of a selector are sorted by their keys. -/
theorem IsTellable.isSortable (h : IsTellable labels) : Value.IsSortable labelLess? labels where
  distinct := Members.nodup_keys h.named
  text _ hmem := Members.key_of_mem h.named hmem
  less := by
    intro x hx y hy
    have same := List.inj_on_of_nodup_map (Members.nodup_keys h.named) hx hy
    obtain ⟨key, value, rfl, -⟩ := isRequirable_iff.mp (h.requirable x hx)
    obtain ⟨other, held, rfl, -⟩ := isRequirable_iff.mp (h.requirable y hy)
    by_cases keys : key = other
    · cases same (congrArg Value.text keys)
      simp [labelLess?, Value.listLess?, Value.equal]
    · simp [labelLess?, Value.listLess?, Value.equal, keys, Value.less?, Value.scalarLess?]

/-- A selector has a text, and the order of its labels makes no difference to it. -/
theorem IsTellable.exists_selectorText (h : IsTellable labels) : ∃ text,
    ∀ others : Members, others.Perm labels → selectorText others = .ok text := by
  let sorted := Value.sortBy (fun x y => (labelLess? x y).getD false) labels
  refine ⟨String.intercalate "," (sorted.map requirementText), fun others perm => ?_⟩
  rw [selectorText, h.isSortable.sortBy?_eq perm]

/-- The text of a selector is split into the pairs of its labels. -/
theorem IsTellable.splitAt_selectorText (h : IsTellable labels) {text : String}
    (htext : selectorText labels = .ok text) :
    ((Cluster.splitAt ',' text.toList).map Cluster.requirement).Perm (labels.map textPair) := by
  have perm := requirements_selectorText h.nonempty h.requirable htext
  -- Only the empty text requires nothing, and here there are labels.
  rw [Cluster.requirements] at perm
  split at perm
  · exact (h.nonempty (List.map_eq_nil_iff.mp perm.nil_eq.symm)).elim
  · exact perm

/-- A pair of texts as a label. -/
def ofPair (pair : String × String) : Value × Value := (.text pair.1, .text pair.2)

theorem IsTellable.map_ofPair (h : IsTellable labels) :
    (labels.map textPair).map ofPair = labels := by
  rw [List.map_map, List.map_congr_left, List.map_id]
  intro label hmem
  obtain ⟨key, value, rfl, -⟩ := isRequirable_iff.mp (h.requirable label hmem)
  rfl

/-- Labels are known by their pairs of texts. -/
theorem IsTellable.perm_of_pairs (h : IsTellable labels) (h' : IsTellable others)
    (pairs : (others.map textPair).Perm (labels.map textPair)) : others.Perm labels := by
  have perm := pairs.map ofPair
  rwa [h.map_ofPair, h'.map_ofPair] at perm

theorem IsTellable.exists_eq_text (h : IsTellable labels) {name : String} {value : Value}
    (hfield : labels.field? name = some value) : ∃ held, value = .text held := by
  obtain ⟨_, held, heq, -⟩ := isRequirable_iff.mp (h.requirable _ (Members.mem_of_field? hfield))
  exact ⟨held, (Prod.mk.inj heq).2⟩

/-- Selectors are equal mappings exactly if they have the same labels in some order. -/
theorem IsTellable.equal_iff_perm (h : IsTellable labels) (h' : IsTellable others) :
    (Value.map others).equal false (.map labels) = true ↔ others.Perm labels := by
  change Value.equalWithin false (.map others) (.map labels) = true ↔ _
  rw [Value.equalWithin_map_iff h'.named h.named, Members.perm_iff h'.named h.named]
  refine forall_congr' fun name => ?_
  cases hx : others.field? name with
  | none => cases labels.field? name <;> simp
  | some x =>
    cases hy : labels.field? name with
    | none => simp
    | some y =>
      obtain ⟨held, rfl⟩ := h'.exists_eq_text hx
      obtain ⟨own, rfl⟩ := h.exists_eq_text hy
      simp

/-- Selectors have one text exactly if they are equal mappings. -/
theorem IsTellable.selectorText_eq_iff (h : IsTellable labels) (h' : IsTellable others)
    {text : String} (htext : selectorText labels = .ok text) :
    selectorText others = .ok text ↔ (Value.map others).equal false (.map labels) = true := by
  rw [h.equal_iff_perm h']
  constructor
  · intro same
    exact h.perm_of_pairs h' ((h'.splitAt_selectorText same).symm.trans
      (h.splitAt_selectorText htext))
  · intro perm
    obtain ⟨own, hown⟩ := h.exists_selectorText
    rw [hown others perm, ← hown labels (.refl _), htext]

/-- The objects of a kind in a namespace that have all of some labels, in the order of their
names. -/
def objectsWith (store : Cluster.Store) (kind : String) (space : Value) (labels : Members) :
    List Value :=
  Cluster.byName ((store.list kind space).filter fun object => labels.all (hasLabel object))

/-- A selector has a text whatever the order of its labels. Split at its commas, and each part at
its first equals sign, the text gives the pairs of the labels. It is the text of no other selector,
and the server lists by it the objects that have all of the labels. -/
theorem selector_text_is_lossless (h : IsTellable labels) : ∃ text,
    selectorText labels = .ok text ∧
    ((Cluster.splitAt ',' text.toList).map Cluster.requirement).Perm (labels.map textPair) ∧
    (∀ others : Members, others.Perm labels → selectorText others = .ok text) ∧
    (∀ others, IsTellable others →
      (selectorText others = .ok text ↔ (Value.map others).equal false (.map labels) = true)) ∧
    ∀ (s : State) (space : Value),
      (s.verdict .listPods (.text "Pod") .null = none →
        (Cluster.listPods space text s).1 = .ok (objectsWith s.store "Pod" space labels)) ∧
      (s.verdict .listReplicaSets (.text "ReplicaSet") .null = none →
        (Cluster.listReplicaSets space text s).1 =
          .ok (objectsWith s.store "ReplicaSet" space labels)) := by
  obtain ⟨text, reordered⟩ := h.exists_selectorText
  have htext := reordered labels (.refl _)
  have listing (store : Cluster.Store) (kind : String) (space : Value) :
      store.select kind space text = objectsWith store kind space labels := by
    rw [Cluster.Store.select, selects_eq_all h.requirable htext, objectsWith]
  refine ⟨text, htext, h.splitAt_selectorText htext, reordered, fun others h' => ?_, ?_⟩
  · exact h.selectorText_eq_iff h' htext
  · intro s space
    refine ⟨fun accepted => ?_, fun accepted => ?_⟩
    · rw [Cluster.listPods_of_accepted space text accepted, listing]
    · rw [Cluster.listReplicaSets_of_accepted space text accepted, listing]

/-- Labels of which one has a value with an equals sign. -/
def signedLabels : Members := [(.text "tier", .text "a=b"), (.text "app", .text "web")]

/-- A pod with a name and labels. -/
def podWith (name : String) (labels : Members) : Value :=
  .map [(.text "metadata", .map [(.text "name", .text name), (.text "labels", .map labels)])]

/-- A cluster with a pod that has these labels and one more, and a pod that lacks one of them. -/
def signedCluster : State where
  store := [
    (⟨.text "Pod", .text "default", .text "web"⟩,
      podWith "web" ((.text "zone", .text "b") :: signedLabels)),
    (⟨.text "Pod", .text "default", .text "db"⟩,
      podWith "db" [(.text "app", .text "web"), (.text "tier", .text "a")])]

theorem selector_text_is_lossless_signed :
    selectorText signedLabels = .ok "app=web,tier=a=b" ∧
    selectorText [(.text "app", .text "web"), (.text "tier", .text "a")] ≠
      .ok "app=web,tier=a=b" ∧
    (Cluster.listPods (.text "default") "app=web,tier=a=b" signedCluster).1 =
      .ok [podWith "web" ((.text "zone", .text "b") :: signedLabels)] := by
  have written : selectorText signedLabels = .ok "app=web,tier=a=b" := by rfl
  obtain ⟨text, htext, -, -, told, lists⟩ :=
    @selector_text_is_lossless signedLabels ⟨by decide, by decide, by decide⟩
  obtain rfl := Except.ok.inj (htext.symm.trans written)
  refine ⟨written, ?_, ?_⟩
  · refine (told _ ⟨by decide, by decide, by decide⟩).not.mpr ?_
    decide
  · exact ((lists signedCluster (.text "default")).1 rfl).trans (by rfl)

end Reconciler.Schema

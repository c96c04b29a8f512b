import Reconciler.Proofs.Readiness.Checking
import Reconciler.Proofs.Rollout.Labels
import Reconciler.Proofs.Value.Decidable
import Reconciler.Proofs.Value.Sorting
import Mathlib.Data.Prod.Lex

/-!
# The oldest replica set of a template

A deployment may have several replica sets of its template, and the oldest of them counts. Age
goes by the instant of creation and not by how a time is written, and of replica sets created at
one instant the first by name is the oldest. Creations are in a linear order, so if all names
differ then there is one oldest, wherever it stands in a listing. Main statement: the replica set
that is found for a deployment is the oldest one that the deployment controls and that has its
template, and it is the same for every order of the listing.
-/

namespace Reconciler

namespace Rollout

open Form

/-! ### Creations -/

/-- The instant at which a replica set was created, in microseconds of the universal clock, and
the name that it was given. -/
@[ext] structure Creation where
  instant : Int
  name : String

namespace Creation

/-- What puts creations in order. -/
def key (creation : Creation) : Int ×ₗ String := toLex (creation.instant, creation.name)

theorem key_injective : Function.Injective key := by
  intro x y h
  have same : (x.instant, x.name) = (y.instant, y.name) := h
  exact Creation.ext (congrArg Prod.fst same) (congrArg Prod.snd same)

instance : LinearOrder Creation := LinearOrder.lift' key key_injective

theorem lt_iff (x y : Creation) :
    x < y ↔ x.instant < y.instant ∨ x.instant = y.instant ∧ x.name < y.name :=
  Prod.Lex.toLex_lt_toLex

/-- The creation that a key of a replica set stands for. -/
def ofKey : Int × Value → Creation
  | (instant, .text name) => ⟨instant, name⟩
  | (instant, _) => ⟨instant, ""⟩

end Creation

theorem createdBefore?_text (i j : Int) (n m : String) :
    createdBefore? (i, .text n) (j, .text m) =
      some (decide ((⟨i, n⟩ : Creation) < ⟨j, m⟩)) := by
  by_cases instants : i = j
  · subst instants
    by_cases names : n = m
    · subst names
      simp [createdBefore?, Value.equal]
    · simp [createdBefore?, Creation.lt_iff, Value.equal, names, Value.less?, Value.scalarLess?]
  · simp [createdBefore?, Creation.lt_iff, instants]

/-- The moment that a time of creation tells. An object without one was created at the start of
the calendar, and text is read with its marks of universal time as offsets. -/
inductive Tells : Value → Moment → Prop
  | absent : Tells .null .first
  | written {text : String} {moment : Moment}
      (h : Moment.read (zeroOffset text.toList) = some moment) : Tells (.text text) moment
  | exact (moment : Moment) : Tells (.moment moment) moment

/-- A replica set says when it was created, at an instant of the calendar, and it has a name. -/
structure WasCreated (replicaSet : Value) (creation : Creation) : Prop where
  told : ∃ moment, Tells ((replicaSet.field "metadata").field "creationTimestamp") moment ∧
    moment.instant = creation.instant
  inCalendar : Moment.inCalendar creation.instant
  named : (replicaSet.field "metadata").field "name" = .text creation.name

/-- One replica set is older than another: it was created earlier, or at the same instant and its
name comes first. -/
def IsOlder (x y : Value) : Prop := ∃ c d, WasCreated x c ∧ WasCreated y d ∧
  (c.instant < d.instant ∨ c.instant = d.instant ∧ c.name < d.name)

section

variable {replicaSet x y : Value} {creation c d : Creation}

theorem Tells.unique {timestamp : Value} {m n : Moment} (hm : Tells timestamp m)
    (hn : Tells timestamp n) : m = n := by
  cases hm with
  | absent => cases hn; rfl
  | written h =>
    cases hn with
    | written h' => exact Option.some.inj (h.symm.trans h')
  | exact => cases hn; rfl

theorem WasCreated.unique (hc : WasCreated replicaSet c) (hd : WasCreated replicaSet d) :
    c = d := by
  obtain ⟨m, hm, hinstant⟩ := hc.told
  obtain ⟨n, hn, hinstant'⟩ := hd.told
  obtain rfl := hm.unique hn
  exact Creation.ext (hinstant.symm.trans hinstant')
    (Value.text.inj (hc.named.symm.trans hd.named))

theorem IsOlder.asymm (hxy : IsOlder x y) (hyx : IsOlder y x) : False := by
  obtain ⟨c, d, hc, hd, hcd⟩ := hxy
  obtain ⟨d', c', hd', hc', hdc⟩ := hyx
  obtain rfl := hc.unique hc'
  obtain rfl := hd.unique hd'
  exact lt_asymm ((Creation.lt_iff c d).mpr hcd) ((Creation.lt_iff d c).mpr hdc)

theorem creationInstant_eq {timestamp : Value} {moment : Moment} (told : Tells timestamp moment)
    (inCalendar : Moment.inCalendar moment.instant) :
    creationInstant timestamp = .ok moment.instant := by
  cases told with
  | absent => rfl
  | written h =>
    rw [creationInstant]
    dsimp only
    rw [h]
    exact if_pos inCalendar
  | exact => exact if_pos inCalendar

end

/-! ### Replica sets of a deployment -/

/-- The template of the pods that an object makes. -/
def templateOf (object : Value) : Value := (object.field "spec").field "template"

/-- What a deployment must be for its replica sets to be told from others. -/
def ownerForm : Form := record [
  ("metadata", record []),
  ("spec", record [("template", templateForm)])]

/-- What a replica set must be to be told from others. -/
def ownedForm : Form := record [
  ("metadata", record [("ownerReferences", list (record []))]),
  ("spec", record [("template", templateForm)])]

/-- A replica set that has what it is chosen by. -/
structure IsReplicaSet (replicaSet : Value) : Prop where
  present : replicaSet.isNull = false
  fits : ownedForm.fits replicaSet
  created : ∃ creation, WasCreated replicaSet creation

/-- A deployment controls a replica set that has a controller with the deployment's identity
among its owners. -/
def Controls (deployment replicaSet : Value) : Prop :=
  ∃ reference ∈ ((replicaSet.field "metadata").field "ownerReferences").items,
    (reference.field "controller").isTruthy ∧
      (reference.field "uid").equal false ((deployment.field "metadata").field "uid")

instance (deployment replicaSet : Value) : Decidable (Controls deployment replicaSet) :=
  inferInstanceAs (Decidable (∃ reference ∈ _, _))

/-- A replica set of a deployment's present template. -/
structure IsCurrent (deployment replicaSet : Value) : Prop where
  controlled : Controls deployment replicaSet
  same : sameTemplate (templateOf replicaSet) (templateOf deployment) = .ok true

/-- What is found is the oldest of the replica sets of a deployment's present template, and
nothing is found only if there is none. -/
structure IsOldest (deployment : Value) (replicaSets : List Value) (found : Option Value) :
    Prop where
  missing : found = none ↔ ∀ replicaSet ∈ replicaSets, ¬ IsCurrent deployment replicaSet
  current : ∀ replicaSet, found = some replicaSet →
    replicaSet ∈ replicaSets ∧ IsCurrent deployment replicaSet
  oldest : ∀ replicaSet, found = some replicaSet → ∀ other ∈ replicaSets,
    IsCurrent deployment other → other ≠ replicaSet → IsOlder replicaSet other

section

variable {deployment replicaSet template : Value} {creation : Creation}
  {replicaSets others : List Value}

theorem anyController_eq (uid : Value) {references : List Value} (h : ∀ reference ∈ references,
      reference.isNull = false ∧ (record []).fits reference) :
    anyController uid references = .ok (references.any fun reference =>
      (reference.field "controller").isTruthy && (reference.field "uid").equal false uid) := by
  induction references with
  | nil => rfl
  | cons reference rest ih =>
    obtain ⟨⟨present, fits⟩, hrest⟩ := List.forall_mem_cons.mp h
    rw [anyController, get_eq_field fits present, get_eq_field fits present, ih hrest,
      List.any_cons]
    simp only [bind, Except.bind]
    cases (reference.field "controller").isTruthy with
    | false => rfl
    | true => cases (reference.field "uid").equal false uid <;> rfl

theorem isControlledBy_eq (h : IsReplicaSet replicaSet) (present : deployment.isNull = false)
    (fits : ownerForm.fits deployment) :
    isControlledBy replicaSet deployment = .ok (decide (Controls deployment replicaSet)) := by
  have metadata := fits_field h.fits "metadata" rfl
  have references := fits_field metadata "ownerReferences" rfl
  obtain ⟨items, hitems, known⟩ := gives_parts references
  obtain rfl := Except.ok.inj ((parts_eq_items references).symm.trans hitems)
  have own := fits_field fits "metadata" rfl
  calc isControlledBy replicaSet deployment
    _ = anyController ((deployment.field "metadata").field "uid")
          ((replicaSet.field "metadata").field "ownerReferences").items := by
        rw [isControlledBy, get_eq_field fits present, get_eq_field h.fits h.present]
        simp only [bind, Except.bind, orEmpty_get_eq_field own, orEmpty_get_eq_field metadata,
          hitems]
    _ = .ok (decide (Controls deployment replicaSet)) := by
        rw [anyController_eq _ known]
        congr 1
        rw [Bool.eq_iff_iff, List.any_eq_true, decide_eq_true_iff, Controls]
        simp only [Bool.and_eq_true]

/-- The key of a replica set is its creation. -/
theorem creationKey_eq (h : IsReplicaSet replicaSet) (created : WasCreated replicaSet creation) :
    creationKey replicaSet = .ok (creation.instant, .text creation.name) := by
  obtain ⟨moment, told, hinstant⟩ := created.told
  have instant : creationInstant ((replicaSet.field "metadata").field "creationTimestamp") =
      .ok creation.instant := by
    rw [← hinstant]
    exact creationInstant_eq told (by rw [hinstant]; exact created.inCalendar)
  have name : (Value.text creation.name).orElse (.text "") = .text creation.name := by
    cases hempty : creation.name.isEmpty with
    | true => rw [String.isEmpty_iff.mp hempty]; rfl
    | false => simp [Value.orElse, hempty]
  have metadata := fits_field h.fits "metadata" rfl
  rw [creationKey, get_eq_field h.fits h.present]
  simp only [bind, Except.bind, orEmpty_get_eq_field metadata, instant, created.named, name]
  rfl

/-- The keys of replica sets are their creations. -/
theorem gives_creations (h : ∀ replicaSet ∈ replicaSets, IsReplicaSet replicaSet) :
    Gives (creationKeys replicaSets) fun keyed => keyed.map (·.2) = replicaSets ∧
      ∀ entry ∈ keyed, ∃ creation, WasCreated entry.2 creation ∧
        entry.1 = (creation.instant, .text creation.name) := by
  induction replicaSets with
  | nil => exact gives_ok ⟨rfl, nofun⟩
  | cons replicaSet rest ih =>
    obtain ⟨here, hrest⟩ := List.forall_mem_cons.mp h
    obtain ⟨creation, created⟩ := here.created
    obtain ⟨keyed, hkeyed, same, creations⟩ := ih hrest
    rw [creationKeys, creationKey_eq here created, hkeyed]
    refine gives_ok ⟨?_, List.forall_mem_cons.mpr ⟨⟨creation, created, rfl⟩, creations⟩⟩
    rw [List.map_cons, same]

/-- The first replica set with a template stands behind such as do not have it. -/
theorem gives_first (htemplate : templateForm.fits template)
    (h : ∀ replicaSet ∈ replicaSets, IsReplicaSet replicaSet) :
    Gives (firstWithTemplate template replicaSets) fun found =>
      (found = none ↔ ∀ replicaSet ∈ replicaSets,
        sameTemplate (templateOf replicaSet) template ≠ .ok true) ∧
      ∀ replicaSet, found = some replicaSet → ∃ front back,
        replicaSets = front ++ replicaSet :: back ∧
        sameTemplate (templateOf replicaSet) template = .ok true ∧
        ∀ other ∈ front, sameTemplate (templateOf other) template ≠ .ok true := by
  induction replicaSets with
  | nil => exact gives_ok ⟨iff_of_true rfl nofun, nofun⟩
  | cons replicaSet rest ih =>
    obtain ⟨here, hrest⟩ := List.forall_mem_cons.mp h
    have spec := fits_field here.fits "spec" rfl
    obtain ⟨same, hsame, -⟩ := gives_sameTemplate (fits_field spec "template" rfl) htemplate
    have step : firstWithTemplate template (replicaSet :: rest) =
        if same then .ok (some replicaSet) else firstWithTemplate template rest := by
      rw [firstWithTemplate, get_eq_field here.fits here.present]
      simp only [bind, Except.bind, orEmpty_get_eq_field spec, hsame]
      rfl
    rw [step]
    cases same with
    | true =>
      refine gives_ok ⟨iff_of_false nofun fun none => ?_, fun found heq => ?_⟩
      · exact none replicaSet (List.mem_cons_self ..) hsame
      · cases heq
        exact ⟨[], rest, rfl, hsame, nofun⟩
    | false =>
      have differs : sameTemplate (templateOf replicaSet) template ≠ .ok true := by
        rw [templateOf, hsame]
        nofun
      refine (ih hrest).mono fun found ⟨missing, first⟩ => ⟨?_, fun other heq => ?_⟩
      · rw [missing, List.forall_mem_cons]
        exact ⟨fun none => ⟨differs, none⟩, fun none => none.2⟩
      · obtain ⟨front, back, rfl, hother, before⟩ := first other heq
        exact ⟨replicaSet :: front, back, rfl, hother,
          List.forall_mem_cons.mpr ⟨differs, before⟩⟩

/-- Replica sets are gone through in the order of their creations. -/
theorem exists_sorted (h : ∀ replicaSet ∈ replicaSets, IsReplicaSet replicaSet) :
    ∃ keyed sorted, creationKeys replicaSets = .ok keyed ∧
      Value.sortBy? (fun x y => createdBefore? x.1 y.1) keyed = some sorted ∧
      (sorted.map (·.2)).Perm replicaSets ∧
      (sorted.map (·.2)).Pairwise fun x y =>
        ∀ c d, WasCreated x c → WasCreated y d → c ≤ d := by
  obtain ⟨keyed, hkeyed, same, creations⟩ := gives_creations h
  have named : ∀ entry ∈ keyed, ∃ name, entry.1.2 = .text name := by
    intro entry hmem
    obtain ⟨creation, -, hentry⟩ := creations entry hmem
    exact ⟨creation.name, by rw [hentry]⟩
  have byKey : ∀ x ∈ keyed, ∀ y ∈ keyed, (createdBefore? x.1 y.1).getD false =
      decide (Creation.ofKey x.1 < Creation.ofKey y.1) := by
    intro x hx y hy
    obtain ⟨c, -, hc⟩ := creations x hx
    obtain ⟨d, -, hd⟩ := creations y hy
    rw [hc, hd, createdBefore?_text]
    rfl
  have perm := Value.sortBy_perm (fun x y => (createdBefore? x.1 y.1).getD false) keyed
  refine ⟨keyed, _, hkeyed, if_pos (comparable_of_named named), ?_, ?_⟩
  · rw [← same]
    exact perm.map _
  · rw [List.pairwise_map]
    refine (Value.pairwise_sortBy byKey).imp_of_mem fun hx hy le c d hc hd => ?_
    obtain ⟨c', hc', hx⟩ := creations _ (perm.mem_iff.mp hx)
    obtain ⟨d', hd', hy⟩ := creations _ (perm.mem_iff.mp hy)
    rw [hx, hy] at le
    rw [hc.unique hc', hd.unique hd']
    exact le

/-- Of replica sets with different names, one that is not younger than another is older. -/
theorem isOlder_of_le {x y : Value} (hx : IsReplicaSet x) (hy : IsReplicaSet y)
    (le : ∀ c d, WasCreated x c → WasCreated y d → c ≤ d)
    (names : (x.field "metadata").field "name" ≠ (y.field "metadata").field "name") :
    IsOlder x y := by
  obtain ⟨c, hc⟩ := hx.created
  obtain ⟨d, hd⟩ := hy.created
  refine ⟨c, d, hc, hd, (Creation.lt_iff c d).mp ((le c d hc hd).lt_of_ne ?_)⟩
  rintro rfl
  exact names (hc.named.trans hd.named.symm)

/-- The oldest of the replica sets with a deployment's template is found. -/
theorem gives_oldest (present : deployment.isNull = false) (fits : ownerForm.fits deployment)
    (h : ∀ replicaSet ∈ replicaSets, IsReplicaSet replicaSet)
    (distinct : (replicaSets.map fun replicaSet =>
      (replicaSet.field "metadata").field "name").Nodup) :
    Gives (newReplicaSet deployment replicaSets) fun found =>
      (found = none ↔ ∀ replicaSet ∈ replicaSets,
        sameTemplate (templateOf replicaSet) (templateOf deployment) ≠ .ok true) ∧
      ∀ replicaSet, found = some replicaSet → replicaSet ∈ replicaSets ∧
        sameTemplate (templateOf replicaSet) (templateOf deployment) = .ok true ∧
        ∀ other ∈ replicaSets,
          sameTemplate (templateOf other) (templateOf deployment) = .ok true →
          other ≠ replicaSet → IsOlder replicaSet other := by
  obtain ⟨keyed, sorted, hkeyed, hsorted, perm, inOrder⟩ := exists_sorted h
  have spec := fits_field fits "spec" rfl
  have run : newReplicaSet deployment replicaSets =
      firstWithTemplate (templateOf deployment) (sorted.map (·.2)) := by
    rw [newReplicaSet, get_eq_field fits present]
    simp only [bind, Except.bind, orEmpty_get_eq_field spec, hkeyed, hsorted]
    rfl
  have known : ∀ replicaSet ∈ sorted.map (·.2), IsReplicaSet replicaSet :=
    fun replicaSet hmem => h replicaSet (perm.mem_iff.mp hmem)
  rw [run]
  refine (gives_first (fits_field spec "template" rfl) known).mono
    fun found ⟨missing, first⟩ => ⟨?_, fun replicaSet heq => ?_⟩
  · rw [missing]
    exact ⟨fun none replicaSet hmem => none replicaSet (perm.mem_iff.mpr hmem),
      fun none replicaSet hmem => none replicaSet (perm.mem_iff.mp hmem)⟩
  · obtain ⟨front, back, split, hsame, before⟩ := first replicaSet heq
    have mem : replicaSet ∈ replicaSets := perm.mem_iff.mp (by rw [split]; simp)
    refine ⟨mem, hsame, fun other hother hsame' hne => ?_⟩
    -- The other one stands behind, because all in front have other templates.
    have behind : other ∈ back := by
      have among := perm.mem_iff.mpr hother
      rw [split, List.mem_append, List.mem_cons] at among
      rcases among with hfront | rfl | hback
      · exact absurd hsame' (before other hfront)
      · exact absurd rfl hne
      · exact hback
    rw [split, List.pairwise_append, List.pairwise_cons] at inOrder
    refine isOlder_of_le (h replicaSet mem) (h other hother) (inOrder.2.1.1 other behind) ?_
    intro sameName
    exact hne (List.inj_on_of_nodup_map distinct hother mem sameName.symm)

/-- There is one oldest replica set, in whatever order all are listed. -/
theorem IsOldest.eq_of_perm {found found' : Option Value}
    (h : IsOldest deployment replicaSets found) (h' : IsOldest deployment others found')
    (perm : others.Perm replicaSets) : found' = found := by
  have none : found' = none ↔ found = none := by
    rw [h.missing, h'.missing]
    exact ⟨fun none replicaSet hmem => none replicaSet (perm.mem_iff.mpr hmem),
      fun none replicaSet hmem => none replicaSet (perm.mem_iff.mp hmem)⟩
  cases found with
  | none => exact none.mpr rfl
  | some x =>
    cases found' with
    | none => exact absurd (none.mp rfl) nofun
    | some y =>
      obtain ⟨memX, currentX⟩ := h.current x rfl
      obtain ⟨memY, currentY⟩ := h'.current y rfl
      by_contra differ
      have ne : y ≠ x := fun heq => differ (congrArg some heq)
      exact (h.oldest x rfl y (perm.mem_iff.mp memY) currentY ne).asymm
        (h'.oldest y rfl x (perm.mem_iff.mpr memX) currentX ne.symm)

end

end Rollout

namespace Readiness

open Cluster (State)
open Form Session Rollout

variable {deployment : Value} {replicaSets : List Value}

theorem controlledBy_eq (present : deployment.isNull = false) (fits : ownerForm.fits deployment)
    (h : ∀ replicaSet ∈ replicaSets, IsReplicaSet replicaSet) :
    controlledBy deployment replicaSets =
      .ok (replicaSets.filter fun replicaSet => decide (Controls deployment replicaSet)) := by
  induction replicaSets with
  | nil => rfl
  | cons replicaSet rest ih =>
    obtain ⟨here, hrest⟩ := List.forall_mem_cons.mp h
    rw [controlledBy, isControlledBy_eq here present fits, ih hrest, List.filter_cons]
    rfl

/-- Of all replica sets, the oldest one that a deployment controls and that has its template is
chosen. -/
theorem gives_isOldest (present : deployment.isNull = false) (fits : ownerForm.fits deployment)
    (h : ∀ replicaSet ∈ replicaSets, IsReplicaSet replicaSet)
    (distinct : (replicaSets.map fun replicaSet =>
      (replicaSet.field "metadata").field "name").Nodup) :
    Gives (ownReplicaSet deployment replicaSets) (IsOldest deployment replicaSets) := by
  have own {replicaSet : Value} : replicaSet ∈ replicaSets.filter (fun replicaSet =>
      decide (Controls deployment replicaSet)) ↔
      replicaSet ∈ replicaSets ∧ Controls deployment replicaSet := by
    rw [List.mem_filter, decide_eq_true_iff]
  obtain ⟨found, hfound, missing, first⟩ := gives_oldest present fits
    (fun replicaSet hmem => h replicaSet (own.mp hmem).1)
    (distinct.sublist (List.filter_sublist.map _))
  refine ⟨found, ?_, ?_, fun replicaSet heq => ?_, fun replicaSet heq other hother current ne => ?_⟩
  · rw [ownReplicaSet, controlledBy_eq present fits h]
    exact hfound
  · rw [missing]
    exact ⟨fun none replicaSet hmem current => none replicaSet
        (own.mpr ⟨hmem, current.controlled⟩) current.same,
      fun none replicaSet hmem same => none replicaSet (own.mp hmem).1 ⟨(own.mp hmem).2, same⟩⟩
  · obtain ⟨hmem, same, -⟩ := first replicaSet heq
    exact ⟨(own.mp hmem).1, (own.mp hmem).2, same⟩
  · exact (first replicaSet heq).2.2 other (own.mpr ⟨hother, current.controlled⟩) current.same ne

/-- The replica set that is found for a deployment is the oldest of those that it controls and
that have its template, and none is found only if there are none. The order in which the server
lists them makes no difference. -/
theorem currentReplicaSet_is_oldest (json : deployment.isJson)
    (present : deployment.isNull = false)
    (selects : Schema.SelectorRule.matchLabels.form.fits deployment)
    (fits : ownerForm.fits deployment) :
    ∃ space text, IsReplicaSetQuery deployment space text ∧
      ∀ replicaSets, (∀ replicaSet ∈ replicaSets, IsReplicaSet replicaSet) →
        (replicaSets.map fun replicaSet => (replicaSet.field "metadata").field "name").Nodup →
        ∃ found, IsOldest deployment replicaSets found ∧
          ∀ listing s s', listing.Perm replicaSets →
            (listed (Cluster.listReplicaSets space text)).on s = (.ok (.ok listing), s') →
            (currentReplicaSet deployment).on s = (.ok (.ok (.ofOption found)), s') := by
  obtain ⟨labels, hlabels, named⟩ := Schema.gives_labels .matchLabels selects present json
  obtain ⟨text, htext, -⟩ := Schema.gives_selectorText named
  have query : IsReplicaSetQuery deployment
      ((deployment.field "metadata").field "namespace") text := by
    refine ⟨bind_eq_ok.mpr ⟨_, get_eq_field fits present "metadata", ?_⟩, labels, hlabels, htext⟩
    exact orEmpty_get_eq_field (fits_field fits "metadata" rfl) "namespace"
  refine ⟨_, text, query, fun replicaSets h distinct => ?_⟩
  obtain ⟨found, -, oldest⟩ := gives_isOldest present fits h distinct
  refine ⟨found, oldest, fun listing s s' perm hlisting => ?_⟩
  obtain ⟨other, hother, oldest'⟩ := gives_isOldest present fits
    (fun replicaSet hmem => h replicaSet (perm.mem_iff.mp hmem))
    ((perm.map _).nodup_iff.mpr distinct)
  obtain rfl := oldest.eq_of_perm oldest' perm
  rw [on_currentReplicaSet_eq query, hlisting]
  dsimp only
  rw [hother]
  rfl

/-- A deployment of a web server whose template has given labels. -/
def webDeployment (labels : List (String × String)) : Value := .map [
  (.text "apiVersion", .text "apps/v1"),
  (.text "kind", .text "Deployment"),
  (.text "metadata", .map [
    (.text "name", .text "web"),
    (.text "namespace", .text "default"),
    (.text "uid", .text "d-1")]),
  (.text "spec", .map [
    (.text "selector", .map [(.text "matchLabels", .map [(.text "app", .text "web")])]),
    (.text "template", sampleTemplate labels)])]

/-- A replica set of the deployment, with the time at which it was created. -/
def webReplicaSet (name timestamp : String) (labels : List (String × String)) : Value := .map [
  (.text "apiVersion", .text "apps/v1"),
  (.text "kind", .text "ReplicaSet"),
  (.text "metadata", .map [
    (.text "name", .text name),
    (.text "namespace", .text "default"),
    (.text "labels", .map [(.text "app", .text "web")]),
    (.text "creationTimestamp", .text timestamp),
    (.text "ownerReferences", .list [.map [
      (.text "controller", .bool true), (.text "uid", .text "d-1")]])]),
  (.text "spec", .map [(.text "template", sampleTemplate labels)])]

/-- Two replica sets with the deployment's template. The one that was created first shows the
later time on its own clock. -/
def webReplicaSets : List Value := [
  webReplicaSet "web-a" "2024-05-01T08:30:00Z" [("app", "web"), (hashLabel, "5d4f")],
  webReplicaSet "web-b" "2024-05-01T10:00:00+02:00" [("app", "web"), (hashLabel, "5d4f")]]

theorem webReplicaSets_created : WasCreated webReplicaSets[0] ⟨63850235400000000, "web-a"⟩ ∧
    WasCreated webReplicaSets[1] ⟨63850233600000000, "web-b"⟩ := by
  refine ⟨⟨⟨⟨⟨2024, 5, 1⟩, 8, 30, 0, 0, some 0⟩, .written ?_, ?_⟩, ?_, rfl⟩,
    ⟨⟨⟨⟨2024, 5, 1⟩, 10, 0, 0, 0, some 7200000000⟩, .written ?_, ?_⟩, ?_, rfl⟩⟩
  all_goals decide +kernel

theorem isOldest_web : IsOldest (webDeployment [("app", "web")]) webReplicaSets
    (some webReplicaSets[1]) := by
  have current : IsCurrent (webDeployment [("app", "web")]) webReplicaSets[1] :=
    ⟨by decide +kernel, rfl⟩
  have among : webReplicaSets[1] ∈ webReplicaSets := List.getElem_mem _
  refine ⟨iff_of_false nofun fun none => none _ among current, ?_, ?_⟩
  · rintro _ ⟨⟩
    exact ⟨among, current⟩
  · rintro _ ⟨⟩ other hother - ne
    obtain rfl : other = webReplicaSets[0] :=
      (List.mem_cons.mp hother).resolve_right fun hmem => ne (List.mem_singleton.mp hmem)
    exact ⟨_, _, webReplicaSets_created.2, webReplicaSets_created.1, .inl (by decide)⟩

theorem currentReplicaSet_is_oldest_web :
    ((currentReplicaSet (webDeployment [("app", "web")])).on (sampleCluster webReplicaSets)).1 =
      .ok (.ok webReplicaSets[1]) := by
  have json : (webDeployment [("app", "web")]).isJson := by decide +kernel
  obtain ⟨space, text, ⟨hspace, own, hown, htext⟩, chosen⟩ :=
    currentReplicaSet_is_oldest json rfl (by decide +kernel) (by decide +kernel)
  obtain rfl : .text "default" = space := Except.ok.inj hspace
  obtain rfl : [(.text "app", .text "web")] = own := Except.ok.inj hown
  obtain rfl : "app=web" = text := Except.ok.inj htext
  obtain ⟨found, oldest, run⟩ := chosen webReplicaSets (List.forall_mem_cons.mpr
    ⟨⟨rfl, by decide +kernel, _, webReplicaSets_created.1⟩, List.forall_mem_singleton.mpr
      ⟨rfl, by decide +kernel, _, webReplicaSets_created.2⟩⟩) (by decide +kernel)
  obtain rfl := oldest.eq_of_perm isOldest_web (.refl _)
  have listing : (Cluster.listReplicaSets (.text "default") "app=web"
      (sampleCluster webReplicaSets)).1 = .ok webReplicaSets := by
    rw [Cluster.listReplicaSets, Cluster.perform_of_accepted rfl]
    refine congrArg Except.ok ?_
    change (sampleCluster webReplicaSets).store.select "ReplicaSet" (.text "default") "app=web" = _
    decide +kernel
  have listedJson : ∀ objects s', Cluster.listReplicaSets (.text "default") "app=web"
      (sampleCluster webReplicaSets) = (.ok objects, s') → ∀ object ∈ objects, object.isJson := by
    intro objects s' hlist
    obtain rfl := Except.ok.inj ((congrArg Prod.fst hlist).symm.trans listing)
    decide +kernel
  have read := on_listed listedJson
  rw [listing] at read
  exact congrArg Prod.fst (run webReplicaSets (sampleCluster webReplicaSets) _ (.refl _) read)

/-- A replica set of the deployment's template is not found if the template has empty labels. -/
theorem emptied_labels_hide_replica_set :
    let replicaSet := webReplicaSet "web-a" "2024-05-01T08:30:00Z" [(hashLabel, "5d4f")]
    Controls (webDeployment []) replicaSet ∧
      withHash none (templateOf replicaSet) = templateOf (webDeployment []) ∧
      newReplicaSet (webDeployment []) [replicaSet] = .ok none :=
  ⟨by decide +kernel, by decide +kernel, rfl⟩

end Readiness

end Reconciler

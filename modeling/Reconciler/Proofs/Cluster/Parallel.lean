import Reconciler.Proofs.Cluster.Calls
import Reconciler.Session

/-!
# Reading two clusters

What is read from a cluster follows from its store and from what its rules say to the calls.
A relation between clusters that a call of reading does not end, and under which the rules say
the same, is therefore kept by all work that only reads, as long as the parts of the stores
that are read are the same. Such work has the same result on both clusters.

The rules of a cluster are steady if no call of reading changes what they say. Then a cluster
goes on to answer as it did at first, however much is read from it.
-/

namespace Reconciler

open Cluster (State Key Rule Verb Call Api Reply)

namespace Cluster

/-- The calls that only read. -/
def Verb.isReading : Verb → Bool
  | .get | .listPods | .readDeployment | .listReplicaSets => true
  | _ => false

/-- A cluster after a call was recorded and the rules were tried on it. -/
def State.heard (s : State) (verb : Verb) (kind name : Value) (call : Call) : State :=
  { s.record call with rules := (tryRules verb kind name s.rules).2 }

/-- What the rules of a cluster say to a call. -/
def State.verdict (s : State) (verb : Verb) (kind name : Value) : Option ApiRefusal :=
  (tryRules verb kind name s.rules).1

/-- A call that reads is answered from the store, unless it is refused. -/
theorem perform_read (verb : Verb) (kind name : Value) (call : Call) (answer : State → Reply α)
    (s : State) : perform verb kind name call (unchanged answer) s =
      match s.verdict verb kind name with
      | some refusal => (.error refusal, s.heard verb kind name call)
      | none => (answer (s.heard verb kind name call), s.heard verb kind name call) := by
  rw [State.verdict]
  rcases hrules : tryRules verb kind name s.rules with ⟨_ | refusal, rules⟩
  · rw [perform_of_accepted hrules, State.heard, hrules]
    rfl
  · rw [perform_of_refused hrules, State.heard, hrules]

/-- An object that is there is got, unless that is refused. -/
theorem get_of_accepted {s : State} {key : Key} {body : Value}
    (accepted : s.verdict .get key.kind key.name = none) (h : s.store.get? key = some body) :
    (get key s).1 = .ok body := by
  rw [get, perform_read, accepted]
  change State.find (s.heard ..) key = _
  rw [State.find, State.heard, State.record, h]

theorem listPods_of_accepted {s : State} (space : Value) (selector : String)
    (accepted : s.verdict .listPods (.text "Pod") .null = none) :
    (listPods space selector s).1 = .ok (s.store.select "Pod" space selector) := by
  rw [listPods, perform_read, accepted]
  rfl

theorem listReplicaSets_of_accepted {s : State} (space : Value) (selector : String)
    (accepted : s.verdict .listReplicaSets (.text "ReplicaSet") .null = none) :
    (listReplicaSets space selector s).1 = .ok (s.store.select "ReplicaSet" space selector) := by
  rw [listReplicaSets, perform_read, accepted]
  rfl

/-- A relation between clusters that no call of reading ends, and under which no rule tells the
clusters apart. -/
structure LastsWhileRead (R : State → State → Prop) : Prop where
  verdict : ∀ {s t verb kind name}, R s t → verb.isReading →
    s.verdict verb kind name = t.verdict verb kind name
  heard : ∀ {s t verb kind name call}, R s t → verb.isReading →
    R (s.heard verb kind name call) (t.heard verb kind name call)

theorem LastsWhileRead.perform {R : State → State → Prop} (lasts : LastsWhileRead R) {verb : Verb}
    (reading : verb.isReading) (kind name : Value) (call : Call) {answer : State → Reply α}
    (h : ∀ s t, R s t → answer s = answer t) {s t : State} (related : R s t) :
    (perform verb kind name call (unchanged answer) s).1 =
        (perform verb kind name call (unchanged answer) t).1 ∧
      R (perform verb kind name call (unchanged answer) s).2
        (perform verb kind name call (unchanged answer) t).2 := by
  have heard : R (s.heard verb kind name call) (t.heard verb kind name call) :=
    lasts.heard related reading
  rw [perform_read, perform_read, lasts.verdict related reading]
  cases t.verdict verb kind name with
  | some refusal => exact ⟨rfl, heard⟩
  | none => exact ⟨h _ _ heard, heard⟩

/-! ### Rules that say the same all the time -/

/-- The rules that reading leaves. -/
inductive ReadFrom (rules : List Rule) : List Rule → Prop
  | start : ReadFrom rules rules
  | step {later : List Rule} {verb : Verb} (h : ReadFrom rules later) (reading : verb.isReading)
    (kind name : Value) : ReadFrom rules (tryRules verb kind name later).2

/-- No call of reading changes what the rules of a cluster say. -/
def State.IsSteady (s : State) : Prop :=
  ∀ rules, ReadFrom s.rules rules → ∀ verb kind name, verb.isReading →
    (tryRules verb kind name rules).1 = s.verdict verb kind name

/-- A cluster that is read, as it was at first but for its record of calls. -/
structure State.IsReadFrom (origin s : State) : Prop where
  store : s.store = origin.store
  rules : ReadFrom origin.rules s.rules

theorem State.IsReadFrom.refl (s : State) : s.IsReadFrom s := ⟨rfl, .start⟩

theorem lastsWhileRead_of_isSteady {origin : State} (steady : origin.IsSteady) :
    LastsWhileRead fun s t => origin.IsReadFrom s ∧ origin.IsReadFrom t where
  verdict h reading := (steady _ h.1.rules _ _ _ reading).trans
    (steady _ h.2.rules _ _ _ reading).symm
  heard h reading := ⟨⟨h.1.store, .step h.1.rules reading _ _⟩,
    ⟨h.2.store, .step h.2.rules reading _ _⟩⟩

/-- A rule as it was before any call. -/
def Rule.fresh (rule : Rule) : Rule := { rule with matched := 0 }

theorem tryRules_cons_of_uncounted {rule : Rule} (always : rule.nth = none) (verb : Verb)
    (kind name : Value) (rest : List Rule) : tryRules verb kind name (rule :: rest) =
      if rule.isAbout verb kind name then
        (some rule.refusal, { rule with matched := rule.matched + 1 } :: rest)
      else ((tryRules verb kind name rest).1, rule :: (tryRules verb kind name rest).2) := by
  rw [tryRules]
  split
  · simp [always]
  · rfl

/-- Whether rules refuse a call does not depend on how often they were tried, if none of them
is limited to a single call. -/
theorem tryRules_of_uncounted (verb : Verb) (kind name : Value) {rules later : List Rule}
    (uncounted : ∀ rule ∈ rules, rule.nth = none)
    (same : later.map Rule.fresh = rules.map Rule.fresh) :
    (tryRules verb kind name later).1 = (tryRules verb kind name rules).1 ∧
      (tryRules verb kind name later).2.map Rule.fresh = rules.map Rule.fresh := by
  induction rules generalizing later with
  | nil =>
    obtain rfl : later = [] := by simpa using same
    exact ⟨rfl, rfl⟩
  | cons rule rest ih =>
    obtain ⟨own, others, rfl, hown, hothers⟩ := List.map_eq_cons_iff.mp same
    obtain ⟨always, uncounted⟩ := List.forall_mem_cons.mp uncounted
    obtain ⟨alike, kept⟩ := ih uncounted hothers
    have about : own.isAbout verb kind name = rule.isAbout verb kind name := by
      change own.fresh.isAbout verb kind name = rule.fresh.isAbout verb kind name
      rw [hown]
    have never : own.nth = none := (congrArg Rule.nth hown).trans always
    have refusal := congrArg Rule.refusal hown
    rw [tryRules_cons_of_uncounted never, tryRules_cons_of_uncounted always, about]
    split
    · exact ⟨congrArg some refusal, List.cons_eq_cons.mpr ⟨hown, hothers⟩⟩
    · exact ⟨alike, List.cons_eq_cons.mpr ⟨hown, kept⟩⟩

/-- A refusal is that of some rule. -/
theorem exists_rule_of_tryRules {verb : Verb} {kind name : Value} {rules : List Rule}
    {refusal : ApiRefusal} (h : (tryRules verb kind name rules).1 = some refusal) :
    ∃ rule ∈ rules, rule.refusal = refusal := by
  induction rules with
  | nil => cases h
  | cons rule rest ih =>
    have later (h : (tryRules verb kind name rest).1 = some refusal) :
        ∃ other ∈ rule :: rest, other.refusal = refusal := by
      obtain ⟨other, hmem, heq⟩ := ih h
      exact ⟨other, List.mem_cons_of_mem _ hmem, heq⟩
    rw [tryRules] at h
    split at h
    · dsimp only at h
      split at h
      · exact ⟨rule, List.mem_cons_self .., Option.some.inj h⟩
      · exact later h
    · exact later h

/-- Rules that are not limited to a single call are steady. -/
theorem isSteady_of_uncounted {s : State} (uncounted : ∀ rule ∈ s.rules, rule.nth = none) :
    s.IsSteady := by
  -- Reading changes no more of the rules than how often they have been tried.
  have fresh : ∀ rules, ReadFrom s.rules rules →
      rules.map Rule.fresh = s.rules.map Rule.fresh := by
    intro rules read
    induction read with
    | start => rfl
    | step h reading kind name ih => exact (tryRules_of_uncounted _ kind name uncounted ih).2
  intro rules read verb kind name reading
  exact (tryRules_of_uncounted verb kind name uncounted (fresh rules read)).1

end Cluster

namespace Session

variable {R : State → State → Prop}

/-- Work has the same result on any two clusters that are related, and leaves them related. -/
def Parallel (R : State → State → Prop) (work : Session α) : Prop :=
  ∀ s t, R s t → (work.on s).1 = (work.on t).1 ∧ R (work.on s).2 (work.on t).2

theorem parallel_ofExcept (result : Except Failure α) : Parallel R (ofExcept result) :=
  fun _ _ related => ⟨rfl, related⟩

theorem parallel_pure (a : α) : Parallel R (pure a) := fun _ _ related => ⟨rfl, related⟩

theorem parallel_throw (failure : Failure) : Parallel R (throw failure : Session α) :=
  fun _ _ related => ⟨rfl, related⟩

/-- What comes next has to be parallel only for results that are possible. -/
theorem parallel_bind {work : Session α} {next : α → Session β} (h : Parallel R work)
    (hnext : ∀ a, (∃ s t, R s t ∧ (work.on s).1 = .ok a) → Parallel R (next a)) :
    Parallel R (work >>= next) := by
  intro s t related
  obtain ⟨same, kept⟩ := h s t related
  rw [on_bind, on_bind]
  rcases hs : work.on s with ⟨failure | a, s'⟩ <;> rcases ht : work.on t with ⟨other | b, t'⟩ <;>
    rw [hs, ht] at same kept <;> cases same
  · exact ⟨rfl, kept⟩
  · exact hnext a ⟨s, t, related, by rw [hs]⟩ s' t' kept

theorem parallel_lift {api : StateM State α}
    (h : ∀ s t, R s t → (api s).1 = (api t).1 ∧ R (api s).2 (api t).2) :
    Parallel R (liftM api) := by
  intro s t related
  rw [on_lift, on_lift]
  exact ⟨congrArg Except.ok (h s t related).1, (h s t related).2⟩

theorem parallel_visit {act : Ref → Session α} {refs : RefSet}
    (h : ∀ ref ∈ refs, Parallel R (act ref)) : Parallel R (visit act refs) := by
  induction refs with
  | nil => exact parallel_pure []
  | cons ref rest ih =>
    obtain ⟨here, others⟩ := List.forall_mem_cons.mp h
    refine parallel_bind here fun a _ => parallel_bind (ih others) fun more _ => ?_
    exact parallel_pure _

end Session

end Reconciler

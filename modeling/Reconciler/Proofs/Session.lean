import Reconciler.Session

/-!
# What sessions keep

A contract says how work may change a cluster and in which ways it may fail. It is closed
under doing nothing and under one step after another, so that a session meets a contract
once its calls do, whatever they answer and wherever the session ends.
-/

namespace Reconciler

open Cluster (State Api Reply)

/-- What work may do to a cluster, and how it may fail. -/
structure Contract where
  allows : State → State → Prop
  fails : Failure → Prop
  refl : ∀ s, allows s s
  trans : ∀ {s t u}, allows s t → allows t u → allows s u

namespace Session

/-- A session does to a cluster only what a contract allows. -/
def Meets (contract : Contract) (work : Session α) : Prop :=
  ∀ s, contract.allows s (work.on s).2 ∧
    ∀ failure, (work.on s).1 = .error failure → contract.fails failure

variable {contract : Contract}

theorem meets_pure (a : α) : (pure a : Session α).Meets contract :=
  fun s => ⟨contract.refl s, nofun⟩

theorem meets_throw {failure : Failure} (h : contract.fails failure) :
    (throw failure : Session α).Meets contract :=
  fun s => ⟨contract.refl s, fun _ heq => Except.error.inj heq ▸ h⟩

theorem meets_ofExcept {result : Except Failure α}
    (h : ∀ failure, result = .error failure → contract.fails failure) :
    (ofExcept result).Meets contract :=
  fun s => ⟨contract.refl s, h⟩

theorem meets_ofFault {result : Except Fault α}
    (h : ∀ fault, contract.fails (.fault fault)) : (ofFault result).Meets contract := by
  refine meets_ofExcept fun failure heq => ?_
  cases result with
  | ok a => cases heq
  | error fault => exact Except.error.inj heq ▸ h fault

theorem meets_state : state.Meets contract := fun s => ⟨contract.refl s, nofun⟩

theorem meets_change {f : State → State} (h : ∀ s, contract.allows s (f s)) :
    (change f).Meets contract := fun s => ⟨h s, nofun⟩

theorem meets_bind {work : Session α} {next : α → Session β} (h : work.Meets contract)
    (hnext : ∀ a, (next a).Meets contract) : (work >>= next).Meets contract := by
  intro s
  obtain ⟨allowed, fails⟩ := h s
  rw [on_bind]
  generalize work.on s = outcome at allowed fails
  obtain ⟨result, s'⟩ := outcome
  cases result with
  | ok a =>
    obtain ⟨later, failsLater⟩ := hnext a s'
    exact ⟨contract.trans allowed later, failsLater⟩
  | error failure => exact ⟨allowed, fun _ heq => fails _ (by cases heq; rfl)⟩

theorem meets_lift {api : StateM State α} (h : ∀ s, contract.allows s (api s).2) :
    (liftM api : Session α).Meets contract := by
  intro s
  rw [on_lift]
  exact ⟨h s, nofun⟩

theorem meets_call {api : Api α} {failure : ApiRefusal → Failure}
    (h : ∀ s, contract.allows s (api s).2) (hfails : ∀ refusal, contract.fails (failure refusal)) :
    (call api failure).Meets contract := by
  refine meets_bind (meets_lift h) fun reply => ?_
  cases reply with
  | ok answer => exact meets_pure answer
  | error refusal => exact meets_throw (hfails refusal)

theorem meets_recorded {work : Session α} (h : work.Meets contract) :
    (recorded work).Meets contract := by
  intro s
  obtain ⟨allowed, fails⟩ := h s
  rw [on_recorded]
  generalize work.on s = run at allowed fails
  obtain ⟨result, s'⟩ := run
  cases result with
  | ok a => exact ⟨allowed, nofun⟩
  | error failure =>
    cases failure with
    | problem problem => exact ⟨allowed, nofun⟩
    | fault fault => exact ⟨allowed, fun _ heq => fails _ (by cases heq; rfl)⟩
    | update problems => exact ⟨allowed, fun _ heq => fails _ (by cases heq; rfl)⟩

theorem meets_visit {act : Ref → Session α} {refs : RefSet}
    (h : ∀ ref ∈ refs, (act ref).Meets contract) : (visit act refs).Meets contract := by
  induction refs with
  | nil => exact meets_pure []
  | cons ref rest ih =>
    refine meets_bind (h ref (List.mem_cons_self ..)) fun a => ?_
    refine meets_bind (ih fun other hmem => h other (List.mem_cons_of_mem _ hmem)) fun more => ?_
    exact meets_pure _

/-- A session goes on with a result that is there. -/
theorem on_bind_ofExcept {result : Except Failure α} {a : α} (h : result = .ok a)
    (next : α → Session β) (s : State) : (ofExcept result >>= next).on s = (next a).on s := by
  rw [h, on_bind, on_ofExcept]

theorem on_bind_ofFault {result : Except Fault α} {a : α} (h : result = .ok a)
    (next : α → Session β) (s : State) : (ofFault result >>= next).on s = (next a).on s :=
  on_bind_ofExcept (by rw [h]; rfl) next s

/-- A session that gives a result has first given what it goes on with. -/
theorem on_bind_eq_ok {work : Session α} {next : α → Session β} {s s' : State} {b : β} :
    (work >>= next).on s = (.ok b, s') ↔
      ∃ a s₁, work.on s = (.ok a, s₁) ∧ (next a).on s₁ = (.ok b, s') := by
  rw [on_bind]
  rcases work.on s with ⟨failure | a, s₁⟩
  · exact ⟨nofun, nofun⟩
  · exact ⟨fun h => ⟨a, s₁, rfl, h⟩, fun ⟨_, _, heq, h⟩ => by cases heq; exact h⟩

theorem on_bind_ofExcept_eq_ok {result : Except Failure α} {next : α → Session β} {s s' : State}
    {b : β} : (ofExcept result >>= next).on s = (.ok b, s') ↔
      ∃ a, result = .ok a ∧ (next a).on s = (.ok b, s') := by
  rw [on_bind_eq_ok]
  constructor
  · rintro ⟨a, s₁, given, h⟩
    obtain ⟨rfl, rfl⟩ := Prod.mk.inj given
    exact ⟨a, rfl, h⟩
  · rintro ⟨a, rfl, h⟩
    exact ⟨a, s, rfl, h⟩

theorem on_bind_ofFault_eq_ok {result : Except Fault α} {next : α → Session β} {s s' : State}
    {b : β} : (ofFault result >>= next).on s = (.ok b, s') ↔
      ∃ a, result = .ok a ∧ (next a).on s = (.ok b, s') := by
  simp only [ofFault, on_bind_ofExcept_eq_ok, liftFault_eq_ok]

/-- What is made of a result in the end does not change the cluster. -/
theorem on_bind_pure (work : Session α) (f : α → β) (s : State) :
    (work >>= fun a => pure (f a)).on s = ((work.on s).1.map f, (work.on s).2) := by
  rw [on_bind]
  rcases work.on s with ⟨failure | a, s₁⟩ <;> rfl

/-- A recorded result is that of the session. -/
theorem on_recorded_eq_ok {work : Session α} {s s' : State} {a : α}
    (h : (recorded work).on s = (.ok (.ok a), s')) : work.on s = (.ok a, s') := by
  rw [on_recorded] at h
  generalize work.on s = run at h ⊢
  obtain ⟨result, s₁⟩ := run
  cases result with
  | error failure => cases failure <;> cases h
  | ok found =>
    cases h
    rfl

/-- To visit references is to visit the first of them and then the others. -/
theorem visit_append (act : Ref → Session α) (front back : RefSet) :
    visit act (front ++ back) = do
      let outcomes ← visit act front
      let more ← visit act back
      return outcomes ++ more := by
  induction front with
  | nil => simp
  | cons ref rest ih => simp [visit_cons, ih]

/-- A contract may be replaced by one that allows more. -/
theorem Meets.weaken {other : Contract} {work : Session α} (h : work.Meets contract)
    (allows : ∀ s t, contract.allows s t → other.allows s t)
    (fails : ∀ failure, contract.fails failure → other.fails failure) : work.Meets other :=
  fun s => ⟨allows _ _ (h s).1, fun failure heq => fails failure ((h s).2 failure heq)⟩

end Session

end Reconciler

import Reconciler.Proofs.Cluster.Calls
import Reconciler.Session

/-!
# Clusters that answer alike

What a client does about one object depends only on the answers to its calls on that object.
Those follow from two things: whether the object is there, and what the rules say to the
calls. Two clusters agree on a place if they have these in common. Work that is alike makes
the same calls on clusters that agree, fails alike on them, and leaves them in agreement.
-/

namespace Reconciler

namespace Cluster

/-- What rules say to calls on an object that are made one after another. -/
def verdicts (kind name : Value) : List Rule → List Verb → List (Option ApiRefusal)
  | _, [] => []
  | rules, verb :: verbs =>
    let (refusal, rules) := tryRules verb kind name rules
    refusal :: verdicts kind name rules verbs

/-- Rules with another name say nothing to calls on an object. -/
theorem verdicts_of_other_name {kind name : Value} {rules : List Rule}
    (h : rules.all fun rule => rule.name.any fun own => !own.equal false name)
    (verbs : List Verb) : verdicts kind name rules verbs = verbs.map fun _ => none := by
  have silent : ∀ verb, tryRules verb kind name rules = (none, rules) := by
    intro verb
    clear verbs
    induction rules with
    | nil => rfl
    | cons rule rest ih =>
      rw [List.all_cons, Bool.and_eq_true] at h
      have apart : rule.isAbout verb kind name = false := by
        rw [Rule.isAbout]
        cases hname : rule.name with
        | none => simp [hname] at h
        | some own => simp_all
      rw [tryRules, apart, ih h.2]
      rfl
  induction verbs with
  | nil => rfl
  | cons verb verbs ih => rw [verdicts, silent, List.map_cons, ← ih]

/-- Two clusters answer calls on a place alike: both have an object there or neither has, and
their rules say the same to any calls on it. -/
structure Agree (key : Key) (s s' : State) : Prop where
  present : (s.store.get? key).isSome = (s'.store.get? key).isSome
  verdicts : ∀ verbs, verdicts key.kind key.name s.rules verbs =
    verdicts key.kind key.name s'.rules verbs

theorem Agree.refl (key : Key) (s : State) : Agree key s s := ⟨rfl, fun _ => rfl⟩

/-- Whether a call is one on the object at a place. -/
def Call.IsAbout (key : Key) : Call → Prop
  | .get other | .create other | .patch other _ _ | .delete other _ => other = key
  | _ => False

/-- The refusal that a reply is, if it is one. -/
def Reply.refusal? : Reply α → Option ApiRefusal
  | .ok _ => none
  | .error refusal => some refusal

/-- A call on a place that two clusters record alike and answer alike. -/
structure AnsweredAlike (key : Key) (call : Call) (s s' : State) (x y : Reply α × State) :
    Prop where
  about : call.IsAbout key
  left : x.2.calls = s.calls ++ [call]
  right : y.2.calls = s'.calls ++ [call]
  agree : Agree key x.2 y.2
  alike : Reply.refusal? x.1 = Reply.refusal? y.1

variable {key : Key} {s s' : State}

/-- Clusters that answer alike go on to do so if the call itself treats them alike. -/
theorem answeredAlike_perform {verb : Verb} {call : Call} {act : State → Reply α × State}
    (about : call.IsAbout key) (h : Agree key s s')
    (calls : ∀ s, (act s).2.calls = s.calls ∧ (act s).2.rules = s.rules)
    (acts : ∀ s s' : State, (s.store.get? key).isSome = (s'.store.get? key).isSome →
      ((act s).2.store.get? key).isSome = ((act s').2.store.get? key).isSome ∧
        Reply.refusal? (act s).1 = Reply.refusal? (act s').1) :
    AnsweredAlike key call s s' (perform verb key.kind key.name call act s)
      (perform verb key.kind key.name call act s') := by
  have first := h.verdicts [verb]
  have later := fun verbs => h.verdicts (verb :: verbs)
  rcases hrules : tryRules verb key.kind key.name s.rules with ⟨refusal, rules⟩
  rcases hrules' : tryRules verb key.kind key.name s'.rules with ⟨refusal', rules'⟩
  simp only [Cluster.verdicts, hrules, hrules', List.cons.injEq, and_true] at first later
  obtain rfl := first
  have agree : Agree key { s.record call with rules } { s'.record call with rules := rules' } :=
    ⟨h.present, fun verbs => (later verbs).2⟩
  cases refusal with
  | some refusal =>
    rw [perform_of_refused hrules, perform_of_refused hrules']
    exact ⟨about, rfl, rfl, agree, rfl⟩
  | none =>
    rw [perform_of_accepted hrules, perform_of_accepted hrules']
    obtain ⟨present, alike⟩ := acts _ _ agree.present
    obtain ⟨left, leftRules⟩ := calls { s.record call with rules }
    obtain ⟨right, rightRules⟩ := calls { s'.record call with rules := rules' }
    refine ⟨about, left, right, ⟨present, fun verbs => ?_⟩, alike⟩
    rw [leftRules, rightRules]
    exact agree.verdicts verbs

theorem refusal?_find (s s' : State) (h : (s.store.get? key).isSome = (s'.store.get? key).isSome) :
    Reply.refusal? (s.find key) = Reply.refusal? (s'.find key) := by
  unfold State.find
  cases hs : s.store.get? key <;> cases hs' : s'.store.get? key <;> simp_all [Reply.refusal?]

theorem answeredAlike_get (h : Agree key s s') :
    AnsweredAlike key (.get key) s s' (get key s) (get key s') :=
  answeredAlike_perform rfl h (fun _ => ⟨rfl, rfl⟩) fun s s' h => ⟨h, refusal?_find s s' h⟩

theorem answeredAlike_create (h : Agree key s s') (body : Value) :
    AnsweredAlike key (.create key) s s' (create key body s) (create key body s') := by
  refine answeredAlike_perform rfl h (fun s => ?_) fun s s' h => ?_
  · unfold State.create
    split <;> exact ⟨rfl, rfl⟩
  · unfold State.create
    cases hs : s.store.get? key with
    | some object =>
      obtain ⟨other, hs'⟩ := Option.isSome_iff_exists.mp (by rw [← h, hs]; rfl)
      simp [hs, hs', Reply.refusal?]
    | none =>
      have hs' : s'.store.get? key = none := by simpa [hs] using h
      have found : ((s.stamp key body).store.get? key).isSome =
          ((s'.stamp key body).store.get? key).isSome := by
        simp only [State.stamp, Store.get?_put_of_none hs, Store.get?_put_of_none hs']
        split <;> rfl
      simpa [hs'] using ⟨found, refusal?_find _ _ found⟩

theorem answeredAlike_patch (h : Agree key s s') (body : Value) (contentType : String) :
    AnsweredAlike key (.patch key body contentType) s s' (patch key body contentType s)
      (patch key body contentType s') := by
  refine answeredAlike_perform rfl h (fun s => ?_) fun s s' h => ?_
  · unfold State.patch
    split <;> exact ⟨rfl, rfl⟩
  · unfold State.patch
    cases hs : s.store.get? key with
    | none =>
      have hs' : s'.store.get? key = none := by simpa [hs] using h
      simp [hs, hs', Reply.refusal?]
    | some object =>
      obtain ⟨other, hs'⟩ := Option.isSome_iff_exists.mp (by rw [← h, hs]; rfl)
      have found : ((s.stamp key object).store.get? key).isSome =
          ((s'.stamp key other).store.get? key).isSome := by
        simp only [State.stamp]
        rw [Store.get?_put_of_isSome (by rw [hs]; rfl), Store.get?_put_of_isSome (by rw [hs']; rfl)]
        rfl
      simpa [hs'] using ⟨found, refusal?_find _ _ found⟩

theorem answeredAlike_delete (h : Agree key s s') (propagation : String) :
    AnsweredAlike key (.delete key (deleteOptions propagation)) s s' (delete key propagation s)
      (delete key propagation s') := by
  refine answeredAlike_perform rfl h (fun s => ?_) fun s s' h => ?_
  · unfold State.delete
    split <;> exact ⟨rfl, rfl⟩
  · unfold State.delete
    cases hs : s.store.get? key with
    | none =>
      have hs' : s'.store.get? key = none := by simpa [hs] using h
      simp [hs, hs', Reply.refusal?]
    | some object =>
      obtain ⟨other, hs'⟩ := Option.isSome_iff_exists.mp (by rw [← h, hs]; rfl)
      simp [hs', Store.get?_remove_self, Reply.refusal?]

end Cluster

namespace Session

open Cluster (State Key Call Api Agree AnsweredAlike Reply)

/-- Two sessions are alike on a place: on clusters that agree on it they make the same calls,
all of them on that place, and come to the same as far as `view` shows. -/
def Alike (key : Key) (view : α → β) (work other : Session α) : Prop :=
  ∀ s s', Agree key s s' → ∃ trace,
    (work.on s).2.calls = s.calls ++ trace ∧ (other.on s').2.calls = s'.calls ++ trace ∧
    (∀ call ∈ trace, Call.IsAbout key call) ∧ Agree key (work.on s).2 (other.on s').2 ∧
    (work.on s).1.map view = (other.on s').1.map view

variable {key : Key}

theorem alike_pure {view : α → β} {a a' : α} (h : view a = view a') :
    Alike key view (pure a) (pure a') :=
  fun s s' agree => ⟨[], by simp, by simp, by simp, agree, congrArg Except.ok h⟩

theorem alike_throw (view : α → β) (failure : Failure) :
    Alike key view (throw failure) (throw failure) :=
  fun s s' agree => ⟨[], by simp, by simp, by simp, agree, rfl⟩

theorem alike_ofExcept (view : α → β) (result : Except Failure α) :
    Alike key view (ofExcept result) (ofExcept result) :=
  fun s s' agree => ⟨[], by simp, by simp, by simp, agree, rfl⟩

theorem alike_bind {view : α → γ} {view' : β → δ} {work other : Session α}
    {next next' : α → Session β} (h : Alike key view work other)
    (hnext : ∀ a a', view a = view a' → Alike key view' (next a) (next' a')) :
    Alike key view' (work >>= next) (other >>= next') := by
  intro s s' agree
  obtain ⟨trace, left, right, about, agree, results⟩ := h s s' agree
  rw [on_bind, on_bind]
  generalize work.on s = x, other.on s' = y at left right agree results
  obtain ⟨_ | a, t⟩ := x <;> obtain ⟨_ | a', t'⟩ := y
  · exact ⟨trace, left, right, about, agree, congrArg Except.error (Except.error.inj results)⟩
  · cases results
  · cases results
  · obtain ⟨later, left', right', about', agree', results'⟩ :=
      hnext a a' (Except.ok.inj results) t t' agree
    refine ⟨trace ++ later, ?_, ?_, fun call hcall => ?_, agree', results'⟩
    · rw [left', left, List.append_assoc]
    · rw [right', right, List.append_assoc]
    · exact (List.mem_append.mp hcall).elim (about call) (about' call)

theorem alike_lift {call : Call} {api : Api α}
    (h : ∀ s s', Agree key s s' → AnsweredAlike key call s s' (api s) (api s')) :
    Alike key Reply.refusal? (liftM api) (liftM api) := by
  intro s s' agree
  obtain ⟨about, left, right, agree, alike⟩ := h s s' agree
  exact ⟨[call], left, right, by simpa using about, agree, congrArg Except.ok alike⟩

theorem alike_call {call : Call} {api : Api α}
    (h : ∀ s s', Agree key s s' → AnsweredAlike key call s s' (api s) (api s'))
    (failure : ApiRefusal → Failure) :
    Alike key (fun _ => ()) (Session.call api failure) (Session.call api failure) := by
  refine alike_bind (alike_lift h) fun reply reply' same => ?_
  cases reply <;> cases reply' <;> cases same
  · exact alike_throw _ _
  · exact alike_pure rfl

/-- The problem that a recorded session has as its result, if it has one. -/
def problem? : Except Problem α → Option Problem
  | .ok _ => none
  | .error problem => some problem

theorem alike_recorded {work other : Session α} (h : Alike key (fun _ => ()) work other) :
    Alike key problem? (recorded work) (recorded other) := by
  intro s s' agree
  obtain ⟨trace, left, right, about, agree, results⟩ := h s s' agree
  rw [on_recorded, on_recorded]
  generalize work.on s = x, other.on s' = y at left right agree results
  refine ⟨trace, ?_⟩
  obtain ⟨failure | a, t⟩ := x <;> obtain ⟨failure' | a', t'⟩ := y
  · obtain rfl := Except.error.inj results
    cases failure <;> exact ⟨left, right, about, agree, rfl⟩
  · cases results
  · cases results
  · exact ⟨left, right, about, agree, rfl⟩

end Session

end Reconciler

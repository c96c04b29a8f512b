import Reconciler.Proofs.Cluster.Calls
import Reconciler.Proofs.Readiness.Pending

/-!
# What a wait returns is live

A check reads every object once more, and a wait returns the references as the last check has
read them. An object that is not there keeps its reference. So while no other client acts, the
references that come out of a wait are live if those that went in are.
-/

namespace Reconciler

open Cluster (State Store)

/-- The references of a set are live in a store: the body of each is the object that is stored
under its kind, namespace and name. -/
def RefSet.AreLive (refs : RefSet) (store : Store) : Prop :=
  ∀ ref ∈ refs, store.get? (.ofRef ref) = some ref.body

namespace Readiness

open Session

/-- An observation of a reference that is live leaves it live. -/
theorem isLive_of_on_observe {ref : Ref} {s s' : State} {seen : Ref × Record}
    (live : s.store.get? (.ofRef ref) = some ref.body)
    (h : (observe ref).on s = (.ok seen, s')) :
    s.store.get? (.ofRef seen.1) = some seen.1.body := by
  rw [on_observe] at h
  rcases hget : Cluster.get (.ofRef ref) s with ⟨refusal | body, s₁⟩
  · rw [hget] at h
    dsimp only at h
    split at h
    · cases h
      exact live
    · cases h
  · rw [hget] at h
    dsimp only at h
    have stored := Cluster.get_eq_ok hget
    split at h
    · cases h
    · cases h
      exact stored
    · split at h
      · cases h
        exact stored
      · cases h

theorem areLive_of_on_visit_observe {refs : RefSet} {s s' : State}
    {observed : List (Ref × Record)} (live : refs.AreLive s.store)
    (h : (visit observe refs).on s = (.ok observed, s')) :
    RefSet.AreLive (observed.map (·.1)) s.store := by
  induction refs generalizing s observed with
  | nil =>
    cases h
    exact List.forall_mem_nil _
  | cons ref rest ih =>
    obtain ⟨first, others⟩ := List.forall_mem_cons.mp live
    obtain ⟨seen, s₁, hobserve, h⟩ := on_bind_eq_ok.mp h
    obtain ⟨more, s₂, hrest, h⟩ := on_bind_eq_ok.mp h
    cases h
    have store : s₁.store = s.store := by
      have kept := (meets_observe Contract.permitsChecks_checking ref s).1.1
      rw [hobserve] at kept
      exact kept
    refine List.forall_mem_cons.mpr ⟨isLive_of_on_observe first hobserve, ?_⟩
    have later := ih (store ▸ others) hrest
    rwa [store] at later

/-- A check of references that are live goes on with references that are live. -/
theorem areLive_of_on_pending {refs found : RefSet} {names : List String} {s s' : State}
    (live : refs.AreLive s.store) (h : (pending refs).on s = (.ok (found, names), s')) :
    found.map Ref.bare = refs.map Ref.bare ∧ found.AreLive s.store := by
  rw [pending_eq] at h
  obtain ⟨observed, s₁, hvisit, h⟩ := on_bind_eq_ok.mp h
  obtain ⟨listed, s₂, -, h⟩ := on_bind_eq_ok.mp h
  cases h
  refine ⟨?_, areLive_of_on_visit_observe live hvisit⟩
  rw [List.map_map]
  exact map_eq_of_visit bare_of_observe hvisit

/-- However often references are checked, in a quiet cluster those that come out are live if
those that went in are. -/
theorem areLive_of_on_poll {timeout interval : Double} {start : Rat} {checks : Nat}
    {refs found : RefSet} {names : List String} {s s' : State} (quiet : s.IsQuiet)
    (live : refs.AreLive s.store)
    (h : (poll timeout interval start checks refs).on s = (.ok (some (found, names)), s')) :
    found.map Ref.bare = refs.map Ref.bare ∧ found.AreLive s.store := by
  induction checks generalizing timeout refs s with
  | zero => cases h
  | succ checks ih =>
    rw [poll] at h
    obtain ⟨⟨checked, listed⟩, s₁, hcheck, h⟩ := on_bind_eq_ok.mp h
    obtain ⟨same, known⟩ := areLive_of_on_pending live hcheck
    have read := (meets_pending Contract.permitsChecks_reading refs s).1.2 quiet
    rw [hcheck] at read
    obtain ⟨quiet₁, store₁⟩ := read
    dsimp only at h
    split at h
    · cases h
      exact ⟨same, known⟩
    · obtain ⟨now, s₂, hnow, h⟩ := on_bind_eq_ok.mp h
      cases hnow
      split at h
      · cases h
        exact ⟨same, known⟩
      · obtain ⟨⟨⟩, s₂, hsleep, h⟩ := on_bind_eq_ok.mp h
        cases hsleep
        obtain ⟨quiet₂, store₂⟩ := (Contract.reading_sleep s₁ interval).2 quiet₁
        have store := store₂.trans store₁
        obtain ⟨same', known'⟩ := ih quiet₂ (by rw [store]; exact known) h
        exact ⟨same'.trans same, store ▸ known'⟩

theorem areLive_of_on_wait {timeout interval : Value} {refs found : RefSet} {s s' : State}
    (quiet : s.IsQuiet) (live : refs.AreLive s.store)
    (h : (wait refs timeout interval).on s = (.ok found, s')) :
    found.map Ref.bare = refs.map Ref.bare ∧ found.AreLive s.store := by
  obtain ⟨seconds, s₁, hseconds, h⟩ := on_bind_eq_ok.mp h
  obtain rfl : s = s₁ := congrArg Prod.snd hseconds
  obtain ⟨pause, s₁, hpause, h⟩ := on_bind_eq_ok.mp h
  obtain rfl : s = s₁ := congrArg Prod.snd hpause
  obtain ⟨now, s₁, hnow, h⟩ := on_bind_eq_ok.mp h
  cases hnow
  obtain ⟨polled, s₁, hpoll, h⟩ := on_bind_eq_ok.mp h
  cases polled with
  | none => cases h
  | some checked =>
    have known := areLive_of_on_poll quiet live hpoll
    rw [finish] at h
    split at h
    · cases h
      exact known
    · cases h

end Readiness

end Reconciler

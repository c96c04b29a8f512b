import Reconciler.Client.Update
import Reconciler.Proofs.Session

/-!
# Updates of manifests and updates of references

An update builds both of its manifests before it makes any call. If they build, it is the
update of their references; if not, it fails and leaves the cluster as it is.
-/

namespace Reconciler.Client

open Cluster (State)
open Session

/-- The references of a manifest that an update builds on a cluster. -/
def builtOn (s : State) (space : Value) (source : Manifest.Source) : Except Failure RefSet :=
  Manifest.build false s.discovery space source

/-- Building does nothing to the cluster, and it fails if the manifest does not build. -/
theorem on_buildForUpdate (space : Value) (source : Manifest.Source) (s : State) :
    ∃ result, (buildForUpdate space source).on s = (result, s) ∧
      ∀ refs, result = .ok refs ↔ builtOn s space source = .ok refs := by
  have built : (build false space source).on s = (builtOn s space source, s) := rfl
  rw [buildForUpdate, on_bind, on_recorded, built]
  rcases builtOn s space source with failure | refs
  · cases failure <;> exact ⟨_, rfl, by simp⟩
  · exact ⟨.ok refs, rfl, by simp⟩

/-- If both manifests build, an update is the update of their references. -/
theorem on_update (client : Client) (space : Value) (original target : Manifest.Source)
    (options : UpdateOptions) {s : State} {earlier targets : RefSet}
    (hearlier : builtOn s space original = .ok earlier)
    (htargets : builtOn s space target = .ok targets) :
    (client.update space original target options).on s =
      (client.updateRefs options earlier targets).on s := by
  obtain ⟨first, hfirst, first_iff⟩ := on_buildForUpdate space original s
  obtain ⟨second, hsecond, second_iff⟩ := on_buildForUpdate space target s
  obtain rfl := (first_iff earlier).mpr hearlier
  obtain rfl := (second_iff targets).mpr htargets
  rw [update, on_bind, hfirst]
  dsimp only
  rw [on_bind, hsecond]

/-- A manifest that must have objects is built if it builds and has some. Nothing is done to the
cluster. -/
theorem on_buildSome_eq_ok {isStrict : Bool} {space : Value} {source : Manifest.Source}
    {s s' : State} {refs : RefSet} : (buildSome isStrict space source).on s = (.ok refs, s') ↔
      Manifest.build isStrict s.discovery space source = .ok refs ∧
        refs ≠ [] ∧ s' = s := by
  have built : (build isStrict space source).on s =
      (Manifest.build isStrict s.discovery space source, s) := rfl
  rw [buildSome, on_bind, built]
  cases Manifest.build isStrict s.discovery space source with
  | error failure => exact ⟨nofun, nofun⟩
  | ok found =>
    cases found with
    | nil => exact ⟨nofun, fun ⟨heq, nonempty, _⟩ => absurd (Except.ok.inj heq).symm nonempty⟩
    | cons ref rest =>
      constructor
      · intro h
        cases h
        exact ⟨rfl, nofun, rfl⟩
      · rintro ⟨heq, -, rfl⟩
        cases heq
        rfl

end Reconciler.Client

import Reconciler.Manifest.Build

/-!
# Identities in a manifest

A manifest that builds has each object once: of its references no two have the same
identity. What is written to shared parts of the objects while they are built does not
matter, since no identity depends on it.
-/

namespace Reconciler.Manifest

/-- No two references of a set have the same identity. -/
def Distinct (refs : RefSet) : Prop := refs.Pairwise fun x y => x.sameIdentity y = false

/-- Writes change bodies and no identities. -/
theorem distinct_ref (writes other : Writes) {drafts : List Draft}
    (h : Distinct (drafts.map (Draft.ref writes))) : Distinct (drafts.map (Draft.ref other)) :=
  List.pairwise_map.mpr (List.pairwise_map.mp h)

theorem distinct_add {progress next : Progress} {draft : Draft} (h : progress.add draft = .ok next)
    (distinct : Distinct (progress.drafts.map (Draft.ref progress.writes))) :
    Distinct (next.drafts.map (Draft.ref next.writes)) := by
  unfold Progress.add at h
  dsimp only at h
  split at h
  · cases h
  · rename_i fresh
    cases h
    rw [List.map_append]
    refine List.pairwise_append.mpr ⟨distinct, List.pairwise_singleton _ _, fun x hx y hy => ?_⟩
    obtain rfl := List.mem_singleton.mp hy
    exact Bool.eq_false_iff.mpr fun same => fresh ((RefSet.contains_iff _ _).mpr ⟨x, hx, same⟩)

theorem distinct_step {isStrict : Bool} {discovery : Discovery} {space : Value}
    {progress next : Progress} {object : Tree}
    (h : progress.step isStrict discovery space object = .ok next)
    (distinct : Distinct (progress.drafts.map (Draft.ref progress.writes))) :
    Distinct (next.drafts.map (Draft.ref next.writes)) := by
  obtain ⟨⟨draft, writes⟩, -, h⟩ := bind_eq_ok.mp h
  have kept := distinct_ref _ writes distinct
  -- Whichever way the paths were found, the step ends in the same two cases.
  have ends : ∀ paths : List String, (if paths.isEmpty then
      ({ progress with writes } : Progress).add draft
    else .ok { progress with writes, undeclared :=
      progress.undeclared ++ [⟨draft.kind, draft.name, paths⟩] }) = .ok next →
      Distinct (next.drafts.map (Draft.ref next.writes)) := by
    intro paths h
    split at h
    · exact distinct_add h kept
    · cases h
      exact kept
  dsimp only at h
  split at h
  · obtain ⟨paths, -, h⟩ := bind_eq_ok.mp h
    exact ends paths h
  · exact ends [] h

theorem distinct_steps {isStrict : Bool} {discovery : Discovery} {space : Value}
    {objects : List Tree} {progress last : Progress}
    (h : objects.foldlM (Progress.step isStrict discovery space) progress = .ok last)
    (distinct : Distinct (progress.drafts.map (Draft.ref progress.writes))) :
    Distinct (last.drafts.map (Draft.ref last.writes)) := by
  induction objects generalizing progress with
  | nil =>
    cases h
    exact distinct
  | cons object rest ih =>
    rw [List.foldlM_cons] at h
    obtain ⟨next, hstep, h⟩ := bind_eq_ok.mp h
    exact ih h (distinct_step hstep distinct)

/-- The references of a manifest that builds have distinct identities. -/
theorem distinct_of_build {isStrict : Bool} {discovery : Discovery} {space : Value}
    {source : Source} {refs : RefSet} (h : build isStrict discovery space source = .ok refs) :
    Distinct refs := by
  obtain ⟨⟨objects, writes⟩, -, h⟩ := bind_eq_ok.mp h
  obtain ⟨progress, hprogress, h⟩ := bind_eq_ok.mp h
  have distinct := distinct_steps hprogress .nil
  split at h
  · cases h
    exact distinct
  · cases h

end Reconciler.Manifest

import Reconciler.Proofs.Client.Reporting
import Reconciler.Proofs.Patch.Computing

/-!
# Patches that cannot be computed

An update looks a target up before it computes the patch, and sends nothing if that fails. If the
patch cannot be computed because something cannot be encoded, then that is a problem with this one
object: it is recorded, and the update goes on with the other targets from there. Main statement:
this is how the patch between any two bodies fails, unless an element of a list that is merged has
a list or a mapping as its key.
-/

namespace Reconciler.Client

open Cluster (State)
open Patch (Decision IsComparable)
open Session

/-- A patch that cannot be computed is a problem with the object for which it was to be sent. -/
theorem decisionFor_of_isEncoding {target : Ref} {current : Value} {failure : Failure}
    (h : Decision.between current target.body = .error failure) (encoding : failure.IsEncoding) :
    ∃ cause : Cause, cause.category = .encoding ∧
      decisionFor target current = .error (.about target (.noPatch cause)) := by
  obtain ⟨problem, rfl, category⟩ := encoding
  exact ⟨problem.cause, category, by rw [decisionFor, h]; rfl⟩

/-- A problem with the patch for a target that has been found is recorded, and nothing is sent. -/
theorem on_reconcile_of_decisionFor (client : Client) (options : UpdateOptions) {earlier : RefSet}
    {target old : Ref} {found : Value} {s s₁ : State} {cause : Cause}
    (hold : earlier.get? target = some old)
    (hget : Cluster.get (.ofRef target) s = (.ok found, s₁))
    (h : decisionFor target old.body = .error (.about target cause)) :
    (client.reconcile options earlier target).on s =
      (.ok (target, some ⟨cause, target.subject⟩), s₁) := by
  rw [reconcile, on_bind, on_lift, hget]
  simp only [settle, hold]
  rw [on_bind, on_recorded, updateObject, on_bind, h, on_ofExcept]
  rfl

/-- Two bodies with usable keys are compared, or it is a problem of encoding that they cannot be.
During an update such a problem is recorded for its target, and the other targets are visited as
they are without it. -/
theorem patch_problems_are_recorded (current desired : Members)
    (comparable : IsComparable current desired) :
    (∀ failure, Decision.between (.map current) (.map desired) = .error failure →
      failure.IsEncoding) ∧
    ∀ (client : Client) (options : UpdateOptions) (earlier rest : RefSet) (target old : Ref)
      (found : Value) (s s₁ : State) (failure : Failure),
      old.body = .map current → target.body = .map desired →
      earlier.get? target = some old → Cluster.get (.ofRef target) s = (.ok found, s₁) →
      Decision.between old.body target.body = .error failure →
      ∃ cause : Cause, cause.category = .encoding ∧
        let others := (visit (client.reconcile options earlier) rest).on s₁
        (visit (client.reconcile options earlier) (target :: rest)).on s =
          (others.1.map (List.cons (target, some ⟨.noPatch cause, target.subject⟩)), others.2) := by
  refine ⟨fun failure => comparable.isEncoding_of_between, ?_⟩
  intro client options earlier rest target old found s s₁ failure hcurrent hdesired hold hget
    hbetween
  have encoding : failure.IsEncoding := by
    rw [hcurrent, hdesired] at hbetween
    exact comparable.isEncoding_of_between hbetween
  obtain ⟨cause, category, hdecision⟩ := decisionFor_of_isEncoding hbetween encoding
  refine ⟨cause, category, ?_⟩
  rw [visit_cons, on_bind, on_reconcile_of_decisionFor client options hold hget hdecision]
  exact on_bind_pure ..

/-- A service with one port. -/
def portService (port : Members) : Members := [
  (.text "apiVersion", .text "v1"),
  (.text "kind", .text "Service"),
  (.text "metadata", .map [(.text "name", .text "dns")]),
  (.text "spec", .map [(.text "ports", .list [.map port])])]

/-- The reference to such a service. -/
def portServiceRef (port : Members) : Ref where
  name := .text "dns"
  space := .text "default"
  kind := .text "Service"
  apiVersion := .text "v1"
  body := .map (portService port)

/-- The body of a service with a number for its port. -/
def numberedPort : Members := [(.text "port", .int 53)]

/-- The members of a port without a number. -/
def nameOfPort : Members := [(.text "name", .text "dns")]

/-- A cluster that has the service. -/
def portCluster : State where
  store := [(⟨.text "Service", .text "default", .text "dns"⟩, .map (portService numberedPort))]

/-- A port without a number keeps the patch from being computed, and is a problem with the service
alone. -/
theorem unnumbered_port_is_recorded : ∃ cause s',
    (visit (({} : Client).reconcile {} [portServiceRef numberedPort])
      [portServiceRef nameOfPort]).on portCluster =
        (.ok [(portServiceRef nameOfPort,
          some ⟨.noPatch cause, (portServiceRef nameOfPort).subject⟩)], s') ∧
    cause.category = .encoding := by
  have comparable : IsComparable (portService numberedPort) (portService nameOfPort) := by
    refine ⟨rfl, rfl, fun info hinfo => ?_⟩
    obtain rfl := Except.ok.inj hinfo
    decide +kernel
  have fails : (Decision.between (.map (portService numberedPort))
      (.map (portService nameOfPort))).isOk = false := by decide +kernel
  obtain ⟨failure, hbetween⟩ := exists_of_isOk_eq_false fails
  obtain ⟨cause, category, run⟩ := (patch_problems_are_recorded _ _ comparable).2 {} {}
    [portServiceRef numberedPort] [] (portServiceRef nameOfPort) (portServiceRef numberedPort)
    _ portCluster _ failure rfl rfl rfl rfl hbetween
  exact ⟨cause, _, run, category⟩

/-- The members of a port with a list for its number. -/
def listedPort (number : Int) : Members := [(.text "port", .list [.int number])]

/-- A list as the key of an element is met with a fault. -/
theorem list_as_merge_key_is_fault :
    ¬∀ (current desired : Members) (textBefore textAfter : List Char),
      Json.encode (.map current) = .ok textBefore → Json.encode (.map desired) = .ok textAfter →
      ((Value.map desired).field "apiVersion").isText → ((Value.map desired).field "kind").isText →
      ∀ failure, Decision.between (.map current) (.map desired) = .error failure →
        failure.IsEncoding := by
  intro encoding
  have encodes (number : Int) (h : (Json.encode (.map (portService (listedPort number)))).isOk) :
      ∃ text, Json.encode (.map (portService (listedPort number))) = .ok text :=
    exists_of_isOk h
  obtain ⟨before, hbefore⟩ := encodes 1 (by decide +kernel)
  obtain ⟨after, hafter⟩ := encodes 2 (by decide +kernel)
  have fails : isFault (Decision.between (.map (portService (listedPort 1)))
      (.map (portService (listedPort 2)))) := by decide +kernel
  obtain ⟨failure, hbetween, other⟩ := not_isEncoding_of_isFault fails
  exact other (encoding _ _ before after hbefore hafter rfl rfl failure hbetween)

end Reconciler.Client

import Reconciler.Value.Basic

/-!
# Faults

A fault says that a value did not have the shape that an operation needs, or that a
collaborator refused a call. Faults carry no wording of their own: what a user reads is a
`Problem`, which names the object concerned.
-/

namespace Reconciler

/-- The ways in which an operation can fail outside its own rules. -/
inductive Fault where
  /-- A member was read from a value that is no mapping, or text was needed. -/
  | noMember
  /-- An operand has the wrong type, or a collection was used as a key. -/
  | wrongType
  /-- Text or a date does not have the form that is needed. -/
  | malformed
  /-- A number is too large for its representation. -/
  | tooLarge
  /-- A position lies outside a sequence. -/
  | outOfRange
  /-- A word is none of those allowed. -/
  | unknownWord
  /-- A record refuses the value of one of its fields. -/
  | refusedField
  /-- The server has no such object. -/
  | absentOnServer
  /-- The server refused a call on an object. -/
  | refusedByServer
  /-- The server refused a call of one of its typed interfaces. -/
  | refusedByApi
  /-- A rollout parameter is neither a number nor a percentage. -/
  | invalidQuantity (value : Value)
  /-- The connection to a cluster is closed. -/
  | closed (cluster : String)
  /-- A loader of credentials failed in a way that is passed on as it is. -/
  | loaderFailed
  /-- A wait never comes to its end, because its time is never over. -/
  | endless
  deriving Inhabited

end Reconciler

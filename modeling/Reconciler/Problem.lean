import Reconciler.Json.Encode
import Reconciler.Resource.Ref

/-!
# Problems

A problem is what a user is told: a cause, and the object that it concerns if there is one.
Causes are values, so that callers can tell them apart; the wording is made from them in one
place, `Cause.message`.
-/

namespace Reconciler

/-- The kinds of problems between which callers distinguish. -/
inductive Category where
  | general
  | encoding
  | noObjects
  | orphanObject
  | patch
  | notFound
  | readinessTimeout
  | watch
  | unsupportedKind
  | clusterApi
  | update
  deriving DecidableEq, Inhabited

/-- Why the server refused a call: its status code and, if it gave one, a reason. -/
structure ApiRefusal where
  status : Value
  reason : Value
  deriving Inhabited

/-- A refusal as text. -/
def ApiRefusal.text (refusal : ApiRefusal) : String :=
  refusal.status.plain ++ "\nReason: " ++ refusal.reason.plain

/-- An object with undeclared fields: its kind, its name and the paths of the fields. -/
structure Undeclared where
  kind : Value
  name : Value
  paths : List String
  deriving Inhabited

/-- The causes of problems. -/
inductive Cause where
  /-- Anything, in the words of the caller, with the objects that were awaited. -/
  | stated (category : Category) (text : String) (awaited : List String)
  /-- A manifest is not UTF-8. -/
  | notText
  /-- A manifest is not well-formed. -/
  | unreadable
  /-- A document is not a mapping. -/
  | documentType (found : String)
  /-- An item of a list document is not a mapping. -/
  | itemType (listKind : String) (found : String)
  /-- An object has no API version or no kind. -/
  | untyped (object : Value)
  /-- An object has no name. -/
  | unnamed
  /-- The server does not serve the kind in this API version. -/
  | unserved (apiVersion : Value)
  /-- Objects have fields that their models do not declare. -/
  | undeclared (objects : List Undeclared)
  /-- Two objects of one manifest have the same identity. -/
  | duplicate
  /-- An object has no canonical text. -/
  | unserializable (refusal : Json.Refusal)
  /-- An element of a list that is merged by a key lacks the key. -/
  | unkeyed (field : Value) (element : Value) (mergeKey : String)
  /-- A manifest that must have objects has none. -/
  | noObjects
  /-- One of the manifests of an update is faulty. -/
  | undecodable (inner : Cause) (concerning : Subject)
  /-- An object could not be looked up before it is updated. -/
  | lookupRefused (refusal : ApiRefusal)
  /-- An object exists but belongs to no earlier manifest. -/
  | orphan
  /-- A manifest that must have one object has several. -/
  | severalObjects (count : Nat)
  /-- An object that must be a pod is not one. -/
  | notPod
  | getRefused (refusal : ApiRefusal)
  | createRefused (refusal : ApiRefusal)
  | deleteRefused (refusal : ApiRefusal)
  | patchRefused (refusal : ApiRefusal)
  | refreshRefused (refusal : ApiRefusal)
  /-- An object was deleted to be replaced and could not be created again. -/
  | recreateRefused (refusal : ApiRefusal)
  /-- No patch can be computed. -/
  | noPatch (inner : Cause)
  /-- A workload has no labels by which to find its pods. -/
  | noPodLabels
  /-- The rule of the kind names no selector. -/
  | noSelectorRule
  | restartRefused (reason : Value)
  | readinessRefused (reason : Value)
  /-- Some objects were not ready in time. -/
  | notReady (timeout : Value) (pending : List String)
  /-- A watched pod was deleted. -/
  | podGone
  /-- A watched job failed. -/
  | jobFailed (reason : Value)
  /-- The server ended a watch with an error. -/
  | watchRefused (doing : String) (reason : Value)
  /-- A watched object did not reach its milestone in time. -/
  | watchTimeout (timeout : Value)
  deriving Inhabited

namespace Cause

/-- The kind of problem that a cause makes. -/
def category : Cause → Category
  | .stated category _ _ => category
  | .notText | .unreadable | .documentType _ | .itemType _ _ | .untyped _ | .unnamed
  | .unserved _ | .undeclared _ | .duplicate | .unserializable _ | .unkeyed _ _ _
  | .undecodable _ _ | .severalObjects _ => .encoding
  | .noObjects => .noObjects
  | .orphan => .orphanObject
  | .notPod | .noPodLabels | .noSelectorRule => .unsupportedKind
  | .lookupRefused _ | .getRefused _ | .createRefused _ | .deleteRefused _ | .refreshRefused _
  | .recreateRefused _ | .restartRefused _ | .readinessRefused _ => .clusterApi
  | .patchRefused _ | .noPatch _ => .patch
  | .notReady _ _ | .watchTimeout _ => .readinessTimeout
  | .podGone => .notFound
  | .jobFailed _ | .watchRefused _ _ => .watch

/-- What a refusal to serialize adds to its message. -/
def refusalDetail : Json.Refusal → String
  | .value typeName => ": Object of type " ++ typeName ++ " is not JSON serializable"
  | _ => ""

/-- The undeclared fields of one object. -/
def undeclaredText (object : Undeclared) : String :=
  "error validating " ++ object.kind.plain ++ " " ++ object.name.shown ++ ": unknown field(s) " ++
    String.intercalate ", " object.paths

/-- The wording of a cause that concerns an object. -/
def message : Cause → Subject → String
  | .stated _ text _, _ => text
  | .notText, _ => "manifests are not valid UTF-8"
  | .unreadable, _ => "error parsing manifests"
  | .documentType found, _ => "manifest document must be a mapping, got " ++ found
  | .itemType listKind found, _ => listKind ++ " item must be a mapping, got " ++ found
  | .untyped object, _ => "object is missing apiVersion or kind: " ++ object.shown
  | .unnamed, s => s.kind.plain ++ " is missing metadata.name"
  | .unserved apiVersion, s =>
    "unable to recognize " ++ s.kind.plain ++ " " ++ s.name.shown ++ ": no matches for kind " ++
      s.kind.shown ++ " in version " ++ apiVersion.shown
  | .undeclared objects, _ => String.intercalate "; " (objects.map undeclaredText)
  | .duplicate, s =>
    "duplicate " ++ s.kind.plain ++ " " ++ s.name.shown ++ " in namespace " ++ s.space.shown
  | .unserializable refusal, _ => "serializing object" ++ refusalDetail refusal
  | .unkeyed field element mergeKey, _ =>
    field.plain ++ ": element " ++ element.shown ++ " does not contain merge key " ++
      (Value.text mergeKey).shown
  | .noObjects, _ => "no objects visited"
  | .undecodable inner concerning, _ =>
    "failed decoding reader into objects: " ++ inner.message concerning
  | .lookupRefused refusal, s =>
    "could not get information about the resource " ++ s.kind.plain ++ " " ++ s.name.shown ++
      ": " ++ refusal.text
  | .orphan, s => "no " ++ s.kind.plain ++ " with the name " ++ s.name.shown ++ " found"
  | .severalObjects count, _ =>
    "expected exactly one Pod manifest, got " ++ toString count ++ " objects"
  | .notPod, s => s.name.plain ++ " is not a Pod"
  | .getRefused refusal, s => failed "get" s refusal
  | .createRefused refusal, s => failed "create" s refusal
  | .deleteRefused refusal, s => failed "delete" s refusal
  | .patchRefused refusal, s =>
    "cannot patch " ++ s.kind.plain ++ " " ++ s.name.shown ++ ": " ++ refusal.text
  | .refreshRefused refusal, _ =>
    "error trying to refresh resource information: " ++ refusal.text
  | .recreateRefused refusal, s =>
    "failed to recreate resource: " ++ failed "create" s refusal
  | .noPatch inner, _ => "failed to create patch: " ++ inner.message {}
  | .noPodLabels, s =>
    s.kind.plain ++ " " ++ s.name.shown ++ " has no matchLabels to select its pods by"
  | .noSelectorRule, s =>
    "unsupported kind when getting selector: " ++ s.kind.plain ++ " " ++ s.name.shown
  | .restartRefused reason, s =>
    "failed to restart pods of " ++ s.kind.plain ++ " " ++ s.name.shown ++ ": " ++ reason.plain
  | .readinessRefused reason, s =>
    "failed to check readiness of " ++ s.kind.plain ++ " " ++ s.name.shown ++ ": " ++ reason.plain
  | .notReady timeout pending, _ =>
    "timed out waiting for the condition after " ++ timeout.plain ++ "s: " ++
      String.intercalate ", " pending
  | .podGone, s => "pods " ++ s.name.shown ++ " not found"
  | .jobFailed reason, _ => "job failed: " ++ reason.plain
  | .watchRefused doing reason, s =>
    "failed to " ++ doing ++ " " ++ s.name.plain ++ ": " ++ reason.plain
  | .watchTimeout timeout, s =>
    "timed out waiting for " ++ s.kind.plain ++ " " ++ s.name.shown ++ " after " ++
      timeout.plain ++ "s"
where
  /-- A refused call, named by its verb. -/
  failed (verb : String) (s : Subject) (refusal : ApiRefusal) : String :=
    "failed to " ++ verb ++ " " ++ s.kind.plain ++ " " ++ s.name.shown ++ ": " ++ refusal.text

/-- The objects that a timeout was still waiting for. -/
def pending : Cause → List String
  | .notReady _ pending => pending
  | .stated _ _ awaited => awaited
  | _ => []

end Cause

/-- A cause and the object that it concerns. -/
structure Problem where
  cause : Cause
  subject : Subject := {}
  deriving Inhabited

/-- The wording of a problem. -/
def Problem.message (problem : Problem) : String := problem.cause.message problem.subject

/-- The kind of a problem. -/
def Problem.category (problem : Problem) : Category := problem.cause.category

/-- How an operation fails: with a fault, with a problem, or with the problems of all the
objects that an update could not bring about. -/
inductive Failure where
  | fault (fault : Fault)
  | problem (problem : Problem)
  | update (problems : List Problem)
  deriving Inhabited

namespace Failure

/-- The wording of the problems of an update. -/
def updateMessage (problems : List Problem) : String :=
  String.intercalate " && " (problems.map Problem.message)

/-- A problem without a subject. -/
def ofCause (cause : Cause) : Failure := .problem { cause }

/-- A problem that concerns a reference. -/
def about (ref : Ref) (cause : Cause) : Failure := .problem { cause, subject := ref.subject }

/-- Whether a failure is a fault or one problem on its own. -/
def IsSingle (failure : Failure) : Prop := ∀ problems, failure ≠ .update problems

/-- Whether a failure says that something cannot be decoded or encoded. -/
def IsEncoding (failure : Failure) : Prop :=
  ∃ problem : Problem, failure = .problem problem ∧ problem.category = .encoding

theorem isEncoding_problem {problem : Problem} (h : problem.category = .encoding) :
    (Failure.problem problem).IsEncoding := ⟨problem, rfl, h⟩

end Failure

/-- A fault is a failure. -/
def liftFault (result : Except Fault α) : Except Failure α := result.mapError .fault

@[simp] theorem liftFault_ok (a : α) : liftFault (.ok a) = .ok a := rfl

@[simp] theorem liftFault_error (fault : Fault) :
    (liftFault (.error fault) : Except Failure α) = .error (.fault fault) := rfl

theorem liftFault_eq_ok {result : Except Fault α} {a : α} :
    liftFault result = .ok a ↔ result = .ok a := by
  cases result with
  | error fault => exact ⟨nofun, nofun⟩
  | ok b => exact ⟨fun h => by cases h; rfl, fun h => by cases h; rfl⟩

theorem isSingle_of_liftFault {result : Except Fault α} {failure : Failure}
    (h : liftFault result = .error failure) : failure.IsSingle := by
  cases result with
  | ok a => cases h
  | error fault =>
    cases h
    exact nofun

theorem exists_of_any {ε : Type} {result : Except ε α} {test : α → Bool}
    (h : result.toOption.any test) : ∃ a, result = .ok a ∧ test a := by
  cases result with
  | ok a => exact ⟨a, rfl, h⟩
  | error => cases h

theorem exists_of_isOk {ε : Type} {result : Except ε α} (h : result.isOk) :
    ∃ a, result = .ok a := by
  cases result with
  | ok a => exact ⟨a, rfl⟩
  | error => cases h

theorem exists_of_isOk_eq_false {ε : Type} {result : Except ε α} (h : result.isOk = false) :
    ∃ e, result = .error e := by
  cases result with
  | ok a => cases h
  | error e => exact ⟨e, rfl⟩

/-- Whether a result is a fault. -/
def isFault : Except Failure α → Bool
  | .error (.fault _) => true
  | _ => false

theorem not_isEncoding_of_isFault {result : Except Failure α} (h : isFault result) :
    ∃ failure, result = .error failure ∧ ¬failure.IsEncoding := by
  rcases result with failure | a
  · cases failure with
    | fault fault => exact ⟨.fault fault, rfl, fun ⟨_, heq, _⟩ => nomatch heq⟩
    | _ => cases h
  · cases h

theorem toOption_eq_some_iff {ε : Type} {result : Except ε α} {a : α} :
    result.toOption = some a ↔ result = .ok a := by
  cases result with
  | ok b => exact ⟨fun h => by cases h; rfl, fun h => by cases h; rfl⟩
  | error e => exact ⟨nofun, nofun⟩

/-- One result after another is there only if both are. -/
theorem bind_eq_ok {ε : Type} {result : Except ε α} {next : α → Except ε β} {b : β} :
    (result >>= next) = .ok b ↔ ∃ a, result = .ok a ∧ next a = .ok b := by
  cases result with
  | error e => exact ⟨nofun, fun ⟨_, h, _⟩ => nomatch h⟩
  | ok a => exact ⟨fun h => ⟨a, rfl, h⟩, fun ⟨_, h, hnext⟩ => by cases h; exact hnext⟩

/-- One result after another fails with the failure of the first one that fails. -/
theorem bind_eq_error {ε : Type} {result : Except ε α} {next : α → Except ε β} {e : ε} :
    (result >>= next) = .error e ↔
      result = .error e ∨ ∃ a, result = .ok a ∧ next a = .error e := by
  cases result with
  | error other => exact ⟨fun h => .inl (by cases h; rfl),
      fun h => h.elim (fun h => by cases h; rfl) fun ⟨_, h, _⟩ => nomatch h⟩
  | ok a => exact ⟨fun h => .inr ⟨a, rfl, h⟩, fun h => h.elim (fun h => nomatch h)
      fun ⟨_, h, hnext⟩ => by cases h; exact hnext⟩

end Reconciler

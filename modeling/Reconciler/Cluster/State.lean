import Reconciler.Cluster.Store

/-!
# The state of a cluster

Beside its store a cluster has a record of all calls, rules by which calls are refused, the
events that watches see, and a clock that only moves while a client sleeps. Other clients
may change the store at each such moment and between the events of a watch.
-/

namespace Reconciler.Cluster

/-- The calls that can be refused. -/
inductive Verb where
  | get
  | create
  | patch
  | delete
  | listPods
  | deletePod
  | readDeployment
  | listReplicaSets
  | watch
  deriving DecidableEq, Inhabited

/-- The record of a call with its arguments, or of another thing that a client did. -/
inductive Call where
  | get (key : Key)
  | create (key : Key)
  | patch (key : Key) (body : Value) (contentType : String)
  | delete (key : Key) (body : Value)
  | listPods (space : Value) (selector : String)
  | deletePod (space name uid : Value)
  | readDeployment (space name : Value)
  | listReplicaSets (space : Value) (selector : String)
  | watch (key : Key) (version timeout : Value)
  /-- A watch was stopped. -/
  | stop
  | sleep (seconds : Double)
  deriving Inhabited

/-- A rule by which calls are refused: those with the verb and, if given, with the kind and
the name; all of them, or only the one of a given number. -/
structure Rule where
  verb : Verb
  kind : Option Value := none
  name : Option Value := none
  nth : Option Int := none
  refusal : ApiRefusal
  /-- How many calls the rule has matched. -/
  matched : Nat := 0
  deriving Inhabited

/-- Whether a rule is about a call. -/
def Rule.isAbout (rule : Rule) (verb : Verb) (kind name : Value) : Bool :=
  rule.verb == verb && (rule.kind.all fun own => own.equal false kind) &&
    rule.name.all fun own => own.equal false name

/-- Try rules in order on a call. Each rule about the call counts it, up to the first one
that refuses it. -/
def tryRules (verb : Verb) (kind name : Value) : List Rule → Option ApiRefusal × List Rule
  | [] => (none, [])
  | rule :: rest =>
    if rule.isAbout verb kind name then
      let rule := { rule with matched := rule.matched + 1 }
      if rule.nth.all fun nth => nth == (rule.matched : Int) then (some rule.refusal, rule :: rest)
      else
        let (refusal, rest) := tryRules verb kind name rest
        (refusal, rule :: rest)
    else
      let (refusal, rest) := tryRules verb kind name rest
      (refusal, rule :: rest)

/-- What another client does to the store. -/
inductive Change where
  | put (object : Value)
  | remove (key : Key)
  deriving Inhabited

/-- How the object of an event is delivered: as the server's text has it, or as a typed
object that can be written as a value, or as a plain value in its place. -/
inductive Delivery where
  | raw
  | wrapped
  | bare
  deriving DecidableEq, Inhabited

/-- Something that happens during a watch. -/
inductive StreamItem where
  /-- The store changes first, and then an event is delivered if there is one. -/
  | event (changes : List Change) (event : Option (Value × Value × Delivery))
  /-- The server ends the watch with an error. -/
  | broken (changes : List Change) (refusal : ApiRefusal)
  deriving Inhabited

/-- A cluster. -/
structure State where
  store : Store := []
  counter : Nat := 100
  calls : List Call := []
  rules : List Rule := []
  /-- What happens during watches, by kind and name. -/
  streams : List (String × List StreamItem) := []
  /-- The changes that happen at the next moments. -/
  ticks : List (List Change) := []
  clock : Rat := 0
  /-- The kinds that the server serves, and the namespace of a client's objects. -/
  discovery : Manifest.Discovery := Cluster.discovery (.text "default")
  deriving Inhabited

namespace State

/-- Record a call. -/
def record (s : State) (call : Call) : State := { s with calls := s.calls ++ [call] }

/-- Store an object with a new version. -/
def stamp (s : State) (key : Key) (object : Value) : State :=
  let counter := s.counter + 1
  { s with store := s.store.put key (writeVersion object counter), counter }

/-- The effect of a change. An object that has a version keeps it. -/
def apply (s : State) : Change → State
  | .put object =>
    let object := placed s.discovery object
    let key := keyOfPlaced object
    if (versionOf object).isNull then s.stamp key object
    else { s with store := s.store.put key object }
  | .remove key => { s with store := s.store.remove key }

/-- The effect of changes one after another. -/
def applyAll (s : State) (changes : List Change) : State := changes.foldl apply s

/-- The items of the stream of a kind and a name. -/
def stream (s : State) (key : Key) : List StreamItem :=
  (s.streams.lookup (key.kind.plain ++ "/" ++ key.name.plain)).getD []

/-- Let time pass; then the next changes of other clients happen. -/
def sleep (s : State) (seconds : Double) : State :=
  let later := { s.record (.sleep seconds) with
    clock := s.clock + (seconds.toRat?).getD 0
    ticks := s.ticks.tail }
  later.applyAll (s.ticks.head?.getD [])

/-- The store as lines of text, one for each object, in order. -/
def lines (s : State) : List String :=
  let line (entry : Key × Value) : String :=
    entry.1.kind.plain ++ " " ++ entry.1.space.plain ++ "/" ++ entry.1.name.plain ++ "@" ++
      (versionOf entry.2).plain
  Value.sortBy (fun x y => decide (x < y)) (s.store.map line)

@[simp] theorem store_record (s : State) (call : Call) : (s.record call).store = s.store := rfl

@[simp] theorem calls_record (s : State) (call : Call) :
    (s.record call).calls = s.calls ++ [call] := rfl

@[simp] theorem calls_stamp (s : State) (key : Key) (object : Value) :
    (s.stamp key object).calls = s.calls := rfl

end State

end Reconciler.Cluster

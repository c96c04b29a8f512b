import Reconciler.Proofs.Connection.Leftover
import Reconciler.Value.Portable

/-!
# The lifetime of a connection

A connection serves all uses until one of them closes it for the first time, and none that needs
it to be open from then on. What holds while it serves is kept by every use that does not close
it, and a connection that is spent is the same after every use. So two facts about single uses
give what happens in every sequence of them: which uses succeed, how many clients that know the
kinds are made, how often the clients are closed, and how long the temporary file is there.

Two uses depend on the client library as well: it serializes objects, and it makes the client that
knows the kinds. They succeed where it does its part, and fail as it fails where it does not; what
becomes of the connection is the same in both cases.
-/

namespace Reconciler.Connection

variable {Object : Type}

namespace Access

/-- Whether a use closes the connection. -/
def closes : Access Object → Bool
  | .close | .useAndLeave => true
  | _ => false

/-- Whether a use needs the connection to be open. -/
def needsOpen : Access Object → Bool
  | .space | .close | .useAndLeave => false
  | _ => true

/-- What an open connection gives once the client that knows the kinds can be made. Of these there
is one, the first. -/
def answer (library : ClientLibrary Object) (config : ConnectionConfig) :
    Access Object → Except Fault Outcome
  | .space => .ok (.space config.defaultSpace)
  | .coreClient | .appsClient | .apiClient => .ok .client
  | .dynamicClient => .ok (.dynamicClient 0)
  | .serialize object => (library.serialize object).map .serialized
  | .close | .useAndLeave => .ok .done

end Access

/-- The client library does its part in a use: it serializes the object, or makes the client that
knows the kinds whenever it is to make one. No other use needs it. -/
def ClientLibrary.Supports (library : ClientLibrary Object) : Access Object → Prop
  | .serialize object => ∃ value, library.serialize object = .ok value
  | .dynamicClient => ∀ attempts, library.discover attempts = .ok ()
  | _ => True

/-- Whether the uses before a place leave the connection open. -/
def staysOpen (accesses : List (Access Object)) (place : Nat) : Bool :=
  (accesses.take place).all fun access => !access.closes

/-- What becomes of a connection that has just been opened, and for which a file was written if
there is one, when it is used a number of times. -/
structure LivesOnce (library : ClientLibrary Object) (connection : Connection)
    (written : Option TempFile) (accesses : List (Access Object)) : Prop where
  /-- Until the connection is closed, all uses succeed in which the library does its part. -/
  opened : ∀ (place : Nat) (access : Access Object), accesses[place]? = some access →
    staysOpen accesses place → library.Supports access →
    ∃ outcome, access.answer library connection.config = .ok outcome ∧
      (connection.run library accesses).1[place]? = some (.ok outcome)
  /-- An object that the library does not serialize fails in the way of the library. -/
  unserialized : ∀ (place : Nat) (object : Object) (fault : Fault),
    accesses[place]? = some (.serialize object) → staysOpen accesses place →
    library.serialize object = .error fault →
    (connection.run library accesses).1[place]? = some (.error fault)
  /-- The client that knows the kinds is the same each time, or could not be made. -/
  undiscovered : ∀ place : Nat, accesses[place]? = some .dynamicClient → staysOpen accesses place →
    (connection.run library accesses).1[place]? = some (.ok (.dynamicClient 0)) ∨
      ∃ attempts fault, library.discover attempts = .error fault ∧
        (connection.run library accesses).1[place]? = some (.error fault)
  /-- Once it has been given, it is given until the connection is closed. -/
  lasting : ∀ place later : Nat, place ≤ later → accesses[place]? = some .dynamicClient →
    accesses[later]? = some .dynamicClient → staysOpen accesses later →
    (connection.run library accesses).1[place]? = some (.ok (.dynamicClient 0)) →
    (connection.run library accesses).1[later]? = some (.ok (.dynamicClient 0))
  /-- After the connection has been closed, uses fail that need it to be open. -/
  closed : ∀ (place : Nat) (access : Access Object), accesses[place]? = some access →
    staysOpen accesses place = false → access.needsOpen →
    (connection.run library accesses).1[place]? = some (.error (.closed connection.config.name))
  /-- The default namespace is there at all times, and closing succeeds at all times. -/
  kept : ∀ (place : Nat) (access : Access Object), accesses[place]? = some access →
    access.needsOpen = false →
    (connection.run library accesses).1[place]? = some (access.answer library connection.config)
  /-- At most one client that knows the kinds is ever made. -/
  made : (connection.run library accesses).2.dynamicsMade ≤ 1
  /-- Nothing changes once the connection has been closed; in particular none is made any more. -/
  spent : ∀ place, staysOpen accesses place = false →
    (connection.run library accesses).2 = (connection.run library (accesses.take place)).2
  /-- The clients are closed once, if the connection is closed at all. -/
  closes : (connection.run library accesses).2.closes = if accesses.any Access.closes then 1 else 0
  /-- The file that was written is there until the connection is closed. -/
  file : ∀ place, (connection.run library (accesses.take place)).2.file =
    written.map fun file => { file with remains := staysOpen accesses place }

/-! ### Connections that serve and connections that are spent -/

/-- A connection serves: it is open, at most one client that knows the kinds has been made and is
the one in use, and the file is there if one was written. -/
structure Serves (config : ConnectionConfig) (written : Option TempFile)
    (connection : Connection) : Prop where
  config : connection.config = config
  isOpen : connection.isOpen
  dynamic : connection.dynamic = none ∧ connection.dynamicsMade = 0 ∨
    connection.dynamic = some 0 ∧ connection.dynamicsMade = 1
  closes : connection.closes = 0
  file : connection.file = written.map fun file => { file with remains := true }

/-- A connection is spent: it has been closed once, and no file is there. -/
structure IsSpent (config : ConnectionConfig) (written : Option TempFile)
    (connection : Connection) : Prop where
  config : connection.config = config
  isOpen : connection.isOpen = false
  dynamic : connection.dynamic = none
  made : connection.dynamicsMade ≤ 1
  closes : connection.closes = 1
  file : connection.file = written.map fun file => { file with remains := false }

variable {library : ClientLibrary Object} {config : ConnectionConfig} {loader : Loader}
  {connection : Connection} {written : Option TempFile} {access : Access Object}
  {accesses : List (Access Object)}

theorem whileOpen_of_isOpen (isOpen : connection.isOpen)
    (result : Except Fault Outcome × Connection) : connection.whileOpen result = result :=
  if_pos isOpen

theorem whileOpen_of_closed (closed : connection.isOpen = false)
    (result : Except Fault Outcome × Connection) :
    connection.whileOpen result = (.error connection.closedFault, connection) := by
  rw [whileOpen, closed]
  rfl

/-- Making the client that knows the kinds fails as the library does, and nothing is made then. -/
theorem discover_of_error {fault : Fault}
    (fails : library.discover connection.attempts = .error fault) : connection.discover library =
      (.error fault, { connection with attempts := connection.attempts + 1 }) := by
  rw [discover, fails]

theorem discover_of_ok (works : library.discover connection.attempts = .ok ()) :
    connection.discover library = (.ok (.dynamicClient connection.dynamicsMade),
      { connection with
        attempts := connection.attempts + 1
        dynamic := some connection.dynamicsMade
        dynamicsMade := connection.dynamicsMade + 1 }) := by
  rw [discover, works]

/-- Uses that do not close a connection leave it serving. -/
theorem Serves.step (serves : Serves config written connection) (stays : access.closes = false) :
    Serves config written (connection.step library access).2 := by
  cases access with
  | close => cases stays
  | useAndLeave => cases stays
  | space => exact serves
  | coreClient | appsClient | apiClient | serialize =>
    rw [Connection.step, whileOpen_of_isOpen serves.isOpen]
    exact serves
  | dynamicClient =>
    rw [Connection.step, dynamicClient]
    rcases serves.dynamic with ⟨unused, made⟩ | ⟨used, -⟩
    · rw [unused]
      dsimp only
      rw [whileOpen_of_isOpen serves.isOpen]
      cases tried : library.discover connection.attempts with
      | error fault =>
        rw [discover_of_error tried]
        exact ⟨serves.config, serves.isOpen, .inl ⟨unused, made⟩, serves.closes, serves.file⟩
      | ok =>
        rw [discover_of_ok tried, made]
        exact ⟨serves.config, serves.isOpen, .inr ⟨rfl, rfl⟩, serves.closes, serves.file⟩
    · rw [used]
      exact serves

/-- A connection that serves is spent after it has been closed. -/
theorem Serves.isSpent_step (serves : Serves config written connection) (closes : access.closes) :
    IsSpent config written (connection.step library access).2 := by
  have spent : IsSpent config written connection.close := by
    refine ⟨serves.config, rfl, rfl, ?_, ?_, ?_⟩
    · show connection.dynamicsMade ≤ 1
      rcases serves.dynamic with ⟨-, made⟩ | ⟨-, made⟩ <;> omega
    · simp [Connection.close, serves.isOpen, serves.closes]
    · simp [Connection.close, serves.file, Function.comp_def]
  cases access with
  | close | useAndLeave => exact spent
  | _ => cases closes

/-- A connection that serves gives the client that knows the kinds, or fails to make it. -/
theorem Serves.dynamicClient (serves : Serves config written connection)
    (library : ClientLibrary Object) :
    (connection.step library .dynamicClient).1 = .ok (.dynamicClient 0) ∨
      ∃ attempts fault, library.discover attempts = .error fault ∧
        (connection.step library .dynamicClient).1 = .error fault := by
  rw [Connection.step, Connection.dynamicClient]
  rcases serves.dynamic with ⟨unused, made⟩ | ⟨used, -⟩
  · rw [unused]
    dsimp only
    rw [whileOpen_of_isOpen serves.isOpen]
    cases tried : library.discover connection.attempts with
    | error fault => exact .inr ⟨_, fault, tried, by rw [discover_of_error tried]⟩
    | ok => exact .inl (by rw [discover_of_ok tried, made])
  · rw [used]
    exact .inl rfl

/-- What a connection that serves makes of an object is what the library makes of it. -/
theorem Serves.serialize (serves : Serves config written connection) (object : Object) :
    (connection.step library (.serialize object)).1 =
      (library.serialize object).map .serialized := by
  rw [Connection.step, whileOpen_of_isOpen serves.isOpen]

/-- A connection that serves answers where the library does its part. -/
theorem Serves.answer (serves : Serves config written connection)
    (supports : library.Supports access) : ∃ outcome, access.answer library config = .ok outcome ∧
      (connection.step library access).1 = .ok outcome := by
  have isOpen := serves.isOpen
  cases access with
  | space =>
    obtain rfl := serves.config
    exact ⟨_, rfl, rfl⟩
  | close | useAndLeave => exact ⟨_, rfl, rfl⟩
  | coreClient | appsClient | apiClient =>
    refine ⟨_, rfl, ?_⟩
    rw [Connection.step, whileOpen_of_isOpen isOpen]
  | serialize object =>
    obtain ⟨value, hvalue⟩ := supports
    refine ⟨.serialized value, ?_, ?_⟩
    · rw [Access.answer, hvalue]
      rfl
    · rw [serves.serialize, hvalue]
      rfl
  | dynamicClient =>
    refine ⟨_, rfl, ?_⟩
    rcases serves.dynamicClient library with given | ⟨attempts, fault, failed, -⟩
    · exact given
    · cases (supports attempts).symm.trans failed

/-- A connection that has given the client that knows the kinds holds it. -/
theorem Serves.dynamic_of_given (serves : Serves config written connection)
    (given : (connection.step library .dynamicClient).1 = .ok (.dynamicClient 0)) :
    (connection.step library .dynamicClient).2.dynamic = some 0 := by
  rw [Connection.step, Connection.dynamicClient] at given ⊢
  rcases serves.dynamic with ⟨unused, made⟩ | ⟨used, -⟩
  · rw [unused] at given ⊢
    dsimp only at given ⊢
    rw [whileOpen_of_isOpen serves.isOpen] at given ⊢
    cases tried : library.discover connection.attempts with
    | error fault =>
      rw [discover_of_error tried] at given
      cases given
    | ok => rw [discover_of_ok tried, made]
  · rw [used]
    exact used

/-- Once the client that knows the kinds is there, nothing but closing changes a connection. -/
theorem step_eq_of_made {number : Nat} (made : connection.dynamic = some number)
    (stays : access.closes = false) : (connection.step library access).2 = connection := by
  cases access with
  | space => rfl
  | close | useAndLeave => cases stays
  | coreClient | appsClient | apiClient | serialize =>
    rw [Connection.step, whileOpen]
    split <;> rfl
  | dynamicClient => rw [Connection.step, dynamicClient, made]

/-- Nothing changes a connection that is spent. -/
theorem IsSpent.step_eq (spent : IsSpent config written connection) (access : Access Object) :
    (connection.step library access).2 = connection := by
  have closed : connection.close = connection := by
    obtain ⟨own, isOpen, dynamic, made, attempts, closes, file⟩ := connection
    obtain ⟨rfl, rfl, rfl, -, rfl, rfl⟩ := spent
    simp [Connection.close, Function.comp_def]
  cases access with
  | space => rfl
  | close | useAndLeave => exact closed
  | coreClient | appsClient | apiClient | serialize =>
    rw [Connection.step, whileOpen_of_closed spent.isOpen]
  | dynamicClient =>
    rw [Connection.step, dynamicClient, spent.dynamic]
    exact congrArg Prod.snd (whileOpen_of_closed spent.isOpen _)

/-- A connection that is spent fails where it would have to be open. -/
theorem IsSpent.refusal (spent : IsSpent config written connection) (needs : access.needsOpen) :
    (connection.step library access).1 = .error (.closed config.name) := by
  obtain ⟨rfl, isOpen, dynamic, -⟩ := spent
  cases access with
  | coreClient | appsClient | apiClient | serialize =>
    rw [Connection.step, whileOpen_of_closed isOpen]
    rfl
  | dynamicClient =>
    rw [Connection.step, Connection.dynamicClient, dynamic]
    exact congrArg Prod.fst (whileOpen_of_closed isOpen _)
  | _ => cases needs

/-- Some uses give the same whether or not the connection is open. -/
theorem answer_of_not_needsOpen (free : access.needsOpen = false) (connection : Connection) :
    (connection.step library access).1 = access.answer library connection.config := by
  cases access with
  | space | close | useAndLeave => rfl
  | _ => cases free

/-! ### Sequences of uses -/

theorem run_cons (library : ClientLibrary Object) (connection : Connection)
    (access : Access Object) (rest : List (Access Object)) :
    connection.run library (access :: rest) =
      ((connection.step library access).1 ::
          ((connection.step library access).2.run library rest).1,
        ((connection.step library access).2.run library rest).2) := rfl

theorem run_append (library : ClientLibrary Object) (connection : Connection)
    (front rest : List (Access Object)) : connection.run library (front ++ rest) =
      ((connection.run library front).1 ++ ((connection.run library front).2.run library rest).1,
        ((connection.run library front).2.run library rest).2) := by
  induction front generalizing connection with
  | nil => rfl
  | cons access front ih =>
    rw [List.cons_append, run_cons, run_cons, ih]
    rfl

/-- What comes of a use follows from the connection as the uses before it have left it. -/
theorem getElem?_run (library : ClientLibrary Object) (connection : Connection)
    (accesses : List (Access Object)) (place : Nat) :
    (connection.run library accesses).1[place]? = accesses[place]?.map fun access =>
      ((connection.run library (accesses.take place)).2.step library access).1 := by
  induction accesses generalizing connection place with
  | nil => rfl
  | cons access rest ih =>
    cases place with
    | zero => rfl
    | succ place =>
      rw [run_cons, List.take_succ_cons, run_cons, List.getElem?_cons_succ, List.getElem?_cons_succ]
      exact ih _ place

/-- Nothing changes a connection that is spent, however often it is used. -/
theorem IsSpent.run_eq (spent : IsSpent config written connection)
    (accesses : List (Access Object)) : (connection.run library accesses).2 = connection := by
  induction accesses with
  | nil => rfl
  | cons access rest ih =>
    rw [run_cons, spent.step_eq access]
    exact ih

/-- A connection with the client that knows the kinds stays as it is until it is closed. -/
theorem run_eq_of_made {number : Nat} (made : connection.dynamic = some number)
    (stay : accesses.any Access.closes = false) :
    (connection.run library accesses).2 = connection := by
  induction accesses with
  | nil => rfl
  | cons access rest ih =>
    rw [List.any_cons, Bool.or_eq_false_iff] at stay
    rw [run_cons, step_eq_of_made made stay.1]
    exact ih stay.2

/-- A connection serves as long as no use closes it. -/
theorem Serves.run (serves : Serves config written connection)
    (stay : accesses.any Access.closes = false) :
    Serves config written (connection.run library accesses).2 := by
  induction accesses generalizing connection with
  | nil => exact serves
  | cons access rest ih =>
    rw [List.any_cons, Bool.or_eq_false_iff] at stay
    exact ih (serves.step stay.1) stay.2

/-- A connection is spent once a use has closed it. -/
theorem Serves.isSpent_run (serves : Serves config written connection)
    (closes : accesses.any Access.closes) :
    IsSpent config written (connection.run library accesses).2 := by
  induction accesses generalizing connection with
  | nil => cases closes
  | cons access rest ih =>
    rw [run_cons]
    cases here : access.closes with
    | true =>
      have spent : IsSpent config written (connection.step library access).2 :=
        serves.isSpent_step here
      have still : ((connection.step library access).2.run library rest).2 =
        (connection.step library access).2 := spent.run_eq rest
      rw [still]
      exact spent
    | false =>
      rw [List.any_cons, here, Bool.false_or] at closes
      exact ih (serves.step here) closes

theorem staysOpen_eq (accesses : List (Access Object)) (place : Nat) :
    staysOpen accesses place = !(accesses.take place).any Access.closes :=
  (List.not_any_eq_all_not ..).symm

theorem any_closes_of_staysOpen {place : Nat} (h : staysOpen accesses place) :
    (accesses.take place).any Access.closes = false := by
  simpa [staysOpen_eq] using h

/-- Once the client that knows the kinds has been given at a place, the connection holds it at all
later places before which it is not closed. -/
theorem Serves.dynamic_run (serves : Serves config written connection) {place later : Nat}
    (after : place < later) (asked : accesses[place]? = some .dynamicClient)
    (opened : staysOpen accesses later)
    (given : ((connection.run library (accesses.take place)).2.step library .dynamicClient).1 =
      .ok (.dynamicClient 0)) :
    (connection.run library (accesses.take later)).2.dynamic = some 0 := by
  have stay := any_closes_of_staysOpen opened
  have split : accesses.take later =
      accesses.take place ++ .dynamicClient :: (accesses.take later).drop (place + 1) := by
    obtain ⟨inside, there⟩ := List.getElem?_eq_some_iff.mp asked
    have short : place < (accesses.take later).length := by
      rw [List.length_take]
      omega
    conv => lhs; rw [← List.take_append_drop place (accesses.take later)]
    rw [List.take_take, Nat.min_eq_left (Nat.le_of_lt after), List.drop_eq_getElem_cons short,
      List.getElem_take, there]
  rw [split, List.any_append, List.any_cons, Bool.or_eq_false_iff, Bool.or_eq_false_iff] at stay
  obtain ⟨before, -, between⟩ := stay
  have held := (serves.run before).dynamic_of_given given
  rw [split, run_append, run_cons, run_eq_of_made held between]
  exact held

/-- A connection that serves lives once. -/
theorem Serves.livesOnce (serves : Serves config written connection)
    (library : ClientLibrary Object) (accesses : List (Access Object)) :
    LivesOnce library connection written accesses := by
  obtain rfl := serves.config
  have serving (place : Nat) (h : staysOpen accesses place) :
      Serves connection.config written (connection.run library (accesses.take place)).2 :=
    serves.run (any_closes_of_staysOpen h)
  have spent (place : Nat) (h : staysOpen accesses place = false) :
      IsSpent connection.config written (connection.run library (accesses.take place)).2 :=
    serves.isSpent_run (by simpa [staysOpen_eq] using h)
  constructor
  case opened =>
    intro place access h opened supports
    obtain ⟨outcome, answer, result⟩ := (serving place opened).answer supports
    exact ⟨outcome, answer, by rw [getElem?_run, h, Option.map_some, result]⟩
  case unserialized =>
    intro place object fault h opened fails
    rw [getElem?_run, h, Option.map_some, (serving place opened).serialize, fails]
    rfl
  case undiscovered =>
    intro place h opened
    simp only [getElem?_run, h, Option.map_some, Option.some.injEq]
    exact (serving place opened).dynamicClient library
  case lasting =>
    intro place later before h later_h opened given
    rcases Nat.eq_or_lt_of_le before with rfl | after
    · exact given
    · rw [getElem?_run, h, Option.map_some, Option.some.injEq] at given
      have held := serves.dynamic_run after h opened given
      rw [getElem?_run, later_h, Option.map_some, Connection.step, Connection.dynamicClient, held]
  case closed =>
    intro place access h closed needs
    rw [getElem?_run, h, Option.map_some, (spent place closed).refusal needs]
  case kept =>
    intro place access h free
    rw [getElem?_run, h, Option.map_some, answer_of_not_needsOpen free]
    cases opened : staysOpen accesses place with
    | true => rw [(serving place opened).config]
    | false => rw [(spent place opened).config]
  case made =>
    cases closes : accesses.any Access.closes with
    | true => exact (serves.isSpent_run closes).made
    | false =>
      have still := (serves.run closes : Serves _ _ (connection.run library accesses).2)
      rcases still.dynamic with ⟨-, made⟩ | ⟨-, made⟩ <;> omega
  case spent =>
    intro place closed
    -- The uses from this place on find the connection spent.
    conv => lhs; rw [← List.take_append_drop place accesses, run_append]
    rw [(spent place closed).run_eq]
  case closes =>
    cases closes : accesses.any Access.closes with
    | true => exact (serves.isSpent_run closes).closes
    | false => exact (serves.run closes).closes
  case file =>
    intro place
    cases opened : staysOpen accesses place with
    | true => exact (serving place opened).file
    | false => exact (spent place opened).file

/-! ### Connections that have been opened -/

theorem serves_of_openWith {load : Load} (remains : ∀ file ∈ written, file.remains)
    (opened : (openWith config loader load written).outcome = .ok connection) :
    Serves config written connection := by
  rw [outcome_openWith] at opened
  cases loaded : loader load with
  | some error =>
    rw [loaded] at opened
    cases opened
  | none =>
    rw [loaded] at opened
    cases opened
    refine ⟨rfl, rfl, .inl ⟨rfl, rfl⟩, rfl, ?_⟩
    cases written with
    | none => rfl
    | some file =>
      obtain ⟨content, _⟩ := file
      obtain rfl := remains _ rfl
      rfl

/-- A connection that has just been opened serves. -/
theorem serves_of_connect (opened : (connect config loader).outcome = .ok connection) :
    Serves config (connect config loader).file connection := by
  unfold connect at opened ⊢
  cases hcredentials : config.credentials with
  | file path =>
    rw [hcredentials] at opened
    exact serves_of_openWith nofun opened
  | inCluster =>
    rw [hcredentials] at opened
    exact serves_of_openWith nofun opened
  | inline encoded =>
    rw [hcredentials] at opened
    dsimp only at opened ⊢
    cases hdecode : Text.Base64.decode true encoded.toList with
    | none =>
      rw [hdecode] at opened
      cases opened
    | some content =>
      rw [hdecode] at opened
      exact serves_of_openWith (fun file hfile => Option.some.inj hfile ▸ rfl) opened

/-- A connection that has been opened serves all uses until it is closed for the first time, as far
as the client library does its part in them, and gives one and the same client that knows the kinds.
From then on it gives no client any more, and makes none. Its clients are closed once if it is
closed at all, and the temporary file is there exactly until then. -/
theorem connection_lives_once (library : ClientLibrary Object) (config : ConnectionConfig)
    (loader : Loader) (connection : Connection)
    (opened : (connect config loader).outcome = .ok connection)
    (accesses : List (Access Object)) :
    LivesOnce library connection (connect config loader).file accesses :=
  (serves_of_connect opened).livesOnce library accesses

/-- A loader that accepts all credentials. -/
def acceptingLoader : Loader := fun _ => none

/-- The connection to which a configuration leads that comes with credentials. -/
def inlineConnection : Connection := { config := inlineConfig, file := some inlineFile }

/-- A library that writes objects by their fields, times as text, and reaches the server. -/
def fieldsLibrary : ClientLibrary Members where
  serialize object := .ok (Value.map object).portable
  discover _ := .ok ()

/-- Uses of a connection, of which two close it. -/
def sampleAccesses : List (Access Members) :=
  [.dynamicClient, .coreClient, .serialize [(.text "kind", .text "Pod")], .dynamicClient,
    .useAndLeave, .dynamicClient, .close, .space]

/-- A connection with a temporary file that is used, closed twice, and used in between. -/
theorem inline_connection_lives_once :
    (connect inlineConfig acceptingLoader).outcome = .ok inlineConnection ∧
      (∀ access ∈ sampleAccesses, fieldsLibrary.Supports access) ∧
      LivesOnce fieldsLibrary inlineConnection (connect inlineConfig acceptingLoader).file
        sampleAccesses := by
  have decoded : Text.Base64.decode true "YXBpVmVyc2lvbjogdjEKa2luZDogQ29uZmlnCg==".toList =
      some inlineFile.content := by decide +kernel
  have credentials : inlineConfig.credentials =
      .inline "YXBpVmVyc2lvbjogdjEKa2luZDogQ29uZmlnCg==" := rfl
  have opened : (connect inlineConfig acceptingLoader).outcome = .ok inlineConnection := by
    rw [connect, credentials]
    dsimp only
    rw [decoded]
    rfl
  refine ⟨opened, fun access _ => ?_, connection_lives_once fieldsLibrary inlineConfig
    acceptingLoader inlineConnection opened _⟩
  cases access with
  | serialize object => exact ⟨_, rfl⟩
  | dynamicClient => exact fun _ => rfl
  | _ => trivial

end Reconciler.Connection

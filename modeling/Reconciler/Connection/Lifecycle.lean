import Reconciler.Connection.Credentials
import Reconciler.Fault
import Reconciler.Value.Shown

/-!
# The life of a connection

A connection is opened with credentials and closed at most once. While it is open it has
three clients, and it makes a fourth, which knows the kinds of the cluster, when that is
first asked for. A temporary file with credentials stays until the connection is closed; if
opening fails there is no connection, and nothing removes the file.

What the client library does is a parameter: it may refuse to serialize an object, and it may
fail to make the client that knows the kinds, which asks the server for them.
-/

namespace Reconciler

/-- A temporary file with credentials. -/
structure TempFile where
  content : List UInt8
  remains : Bool := true
  deriving Inhabited, DecidableEq

/-- A connection. -/
structure Connection where
  config : ConnectionConfig
  isOpen : Bool := true
  /-- The number of the client that knows the kinds, once it has been made. -/
  dynamic : Option Nat := none
  /-- How many such clients have been made. -/
  dynamicsMade : Nat := 0
  /-- How often one was to be made. -/
  attempts : Nat := 0
  /-- How often the clients have been closed. -/
  closes : Nat := 0
  file : Option TempFile := none
  deriving Inhabited

/-- Why a connection could not be opened. -/
inductive ConnectRefusal where
  /-- The credentials could not be loaded; if a loader failed, with its text. -/
  | credentials (cluster : String) (detail : Option String)
  /-- A loader failed in an unexpected way, which is passed on. -/
  | passedOn
  deriving Inhabited, DecidableEq

/-- The wording of credentials that could not be loaded. -/
def ConnectRefusal.message (cluster : String) (detail : Option String) : String :=
  "Failed to load credentials for cluster " ++ (Value.text cluster).shown ++
    detail.elim "" fun text => ": " ++ text

/-- An attempt to open a connection: the calls of loaders, the temporary file that was
written, and the connection or why there is none. -/
structure Attempt where
  loads : List Load := []
  file : Option TempFile := none
  outcome : Except ConnectRefusal Connection

namespace Connection

/-- Call a loader, and open the connection if it does not fail. -/
def openWith (config : ConnectionConfig) (loader : Loader) (load : Load)
    (file : Option TempFile) : Attempt :=
  let outcome := match loader load with
    | none => .ok { config, file }
    | some (.expected text) => .error (.credentials config.name (some text))
    | some .unexpected => .error .passedOn
  { loads := [load], file, outcome }

/-- Try to open a connection. -/
def connect (config : ConnectionConfig) (loader : Loader) : Attempt :=
  match config.credentials with
  | .inline encoded =>
    match Text.Base64.decode true encoded.toList with
    | none => { outcome := .error (.credentials config.name none) }
    | some content =>
      openWith config loader ⟨.content content, config.context⟩ (some { content })
  | .file path => openWith config loader ⟨.path path, config.context⟩ none
  | .inCluster => openWith config loader ⟨.inCluster, none⟩ none

/-- What a connection uses of the client library. -/
structure ClientLibrary (Object : Type) where
  /-- Write an object of the server as a value. -/
  serialize : Object → Except Fault Value
  /-- Make the client that knows the kinds, after so many attempts to make one. -/
  discover : Nat → Except Fault Unit

/-- What can be done with a connection. -/
inductive Access (Object : Type) where
  /-- Ask for the default namespace. -/
  | space
  | coreClient
  | appsClient
  | apiClient
  | dynamicClient
  /-- Write an object of the server as a value. -/
  | serialize (object : Object)
  | close
  /-- Use the connection for a while and leave it, which closes it. -/
  | useAndLeave
  deriving Inhabited

/-- What comes of it. -/
inductive Outcome where
  | space (name : String)
  | client
  /-- The client of a number. -/
  | dynamicClient (number : Nat)
  | serialized (value : Value)
  | done
  deriving Inhabited

/-- The fault of asking for a client of a closed connection. -/
def closedFault (connection : Connection) : Fault := .closed connection.config.name

/-- Go on only if the connection is open. -/
def whileOpen (connection : Connection) (result : Except Fault Outcome × Connection) :
    Except Fault Outcome × Connection :=
  if connection.isOpen then result else (.error connection.closedFault, connection)

/-- Close the clients and remove the temporary file. -/
def close (connection : Connection) : Connection :=
  { connection with
    isOpen := false
    dynamic := none
    closes := if connection.isOpen then connection.closes + 1 else connection.closes
    file := connection.file.map fun file => { file with remains := false } }

variable {Object : Type}

/-- Try to make the client that knows the kinds. If that fails there is still none. -/
def discover (library : ClientLibrary Object) (connection : Connection) :
    Except Fault Outcome × Connection :=
  let number := connection.dynamicsMade
  let tried := { connection with attempts := connection.attempts + 1 }
  match library.discover connection.attempts with
  | .ok () =>
    (.ok (.dynamicClient number), { tried with dynamic := some number, dynamicsMade := number + 1 })
  | .error fault => (.error fault, tried)

/-- The client that knows the kinds, which is made if there is none. -/
def dynamicClient (library : ClientLibrary Object) (connection : Connection) :
    Except Fault Outcome × Connection :=
  match connection.dynamic with
  | some number => (.ok (.dynamicClient number), connection)
  | none => connection.whileOpen (connection.discover library)

/-- One use of a connection. -/
def step (library : ClientLibrary Object) (connection : Connection) :
    Access Object → Except Fault Outcome × Connection
  | .space => (.ok (.space connection.config.defaultSpace), connection)
  | .coreClient | .appsClient | .apiClient => connection.whileOpen (.ok .client, connection)
  | .dynamicClient => connection.dynamicClient library
  | .serialize object =>
    connection.whileOpen ((library.serialize object).map .serialized, connection)
  | .close | .useAndLeave => (.ok .done, connection.close)

/-- Uses of a connection one after another, with what came of each. -/
def run (library : ClientLibrary Object) (connection : Connection) :
    List (Access Object) → List (Except Fault Outcome) × Connection
  | [] => ([], connection)
  | access :: rest =>
    let (outcome, next) := connection.step library access
    let (outcomes, last) := next.run library rest
    (outcome :: outcomes, last)

@[simp] theorem isOpen_close (connection : Connection) : connection.close.isOpen = false := rfl

@[simp] theorem dynamic_close (connection : Connection) : connection.close.dynamic = none := rfl

@[simp] theorem config_close (connection : Connection) :
    connection.close.config = connection.config := rfl

@[simp] theorem run_nil (library : ClientLibrary Object) (connection : Connection) :
    connection.run library [] = ([], connection) := rfl

end Connection

end Reconciler

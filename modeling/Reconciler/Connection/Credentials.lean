import Reconciler.Settings
import Reconciler.Text.Base64

/-!
# Credentials of a cluster

Credentials come with the configuration of the connection, encoded in base 64, or from a
file that it names, or else from within the cluster. A loader that reads files is given the
first kind through a temporary file.
-/

namespace Reconciler

/-- The configuration of a connection. -/
structure ConnectionConfig where
  name : String
  kubeconfigPath : Option String := none
  /-- The contents of a file with credentials, in base 64. -/
  kubeconfigData : Option String := none
  context : Option String := none
  /-- The namespace of objects for which no other is given. -/
  defaultSpace : String := "default"
  deriving Inhabited

namespace ConnectionConfig

/-- A field that may be absent. -/
def optional (values : Members) (name : String) : Option (Option String) :=
  (Value.ofOption (Members.field? values name)).asOptionalText?

/-- A configuration from values; a record refuses fields that are not text, and needs a
name. -/
def ofValues (values : Members) : Except Fault ConnectionConfig :=
  let config : Option ConnectionConfig := do
    let name ← (Members.field? values "name").bind Value.asText?
    let kubeconfigPath ← optional values "kubeconfig_path"
    let kubeconfigData ← optional values "kubeconfig_data"
    let context ← optional values "context"
    let defaultSpace ← ((Members.field? values "namespace").getD (.text "default")).asText?
    return { name, kubeconfigPath, kubeconfigData, context, defaultSpace }
  config.elim (.error .refusedField) .ok

/-- The configuration that settings describe. The connection is called by its context. -/
def ofSettings (settings : Settings) : ConnectionConfig where
  name := (settings.kubeContext.filter fun context => !context.isEmpty).getD "default"
  kubeconfigPath := settings.kubeconfigPath
  context := settings.kubeContext
  defaultSpace := settings.defaultSpace

end ConnectionConfig

/-- Where credentials come from. -/
inductive Credentials where
  | inline (encoded : String)
  | file (path : String)
  | inCluster
  deriving Inhabited, DecidableEq

/-- Where the credentials of a configuration come from; text that is empty counts as none. -/
def ConnectionConfig.credentials (config : ConnectionConfig) : Credentials :=
  let given (text : Option String) : Option String := text.filter fun text => !text.isEmpty
  match given config.kubeconfigData, given config.kubeconfigPath with
  | some encoded, _ => .inline encoded
  | none, some path => .file path
  | none, none => .inCluster

/-- What a loader is given. -/
inductive LoadSource where
  /-- A temporary file with these contents. -/
  | content (bytes : List UInt8)
  | path (path : String)
  | inCluster
  deriving Inhabited, DecidableEq

/-- A call of a loader. -/
structure Load where
  source : LoadSource
  context : Option String
  deriving Inhabited, DecidableEq

/-- How a loader fails: in a way that is expected of it, with a text, or in any other. -/
inductive LoaderError where
  | expected (text : String)
  | unexpected
  deriving Inhabited, DecidableEq

/-- A loader fails on some calls. -/
abbrev Loader := Load → Option LoaderError

end Reconciler

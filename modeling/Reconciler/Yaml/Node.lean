import Reconciler.Yaml.Token

/-!
# Nodes

A document is a tree of nodes: text, sequences and mappings, each with a tag that says what
value it stands for. A node without a written tag gets one from its shape or, if it is plain
text, from the form of the text.

A node to which aliases refer stands at several places of the tree. Its mappings, and those
within it, carry a number by which all these places are known to be one.
-/

namespace Reconciler.Yaml

/-- What a node stands for. -/
inductive Tag where
  | null
  | bool
  | int
  | float
  | binary
  | timestamp
  | text
  | sequence
  | mapping
  | set
  | orderedMapping
  | pairs
  /-- The key under which members of other mappings are included. -/
  | merge
  /-- The key of the text that a mapping stands for where text is needed. -/
  | default
  | unknown
  deriving DecidableEq, Inhabited

/-- The start of the tags that are known. -/
def Tag.family : String := "tag:yaml.org,2002:"

/-- The tag of a full name. -/
def Tag.ofName (name : String) : Tag :=
  if Tag.family.toList.isPrefixOf name.toList then
    match String.ofList (name.toList.drop Tag.family.length) with
    | "null" => .null
    | "bool" => .bool
    | "int" => .int
    | "float" => .float
    | "binary" => .binary
    | "timestamp" => .timestamp
    | "str" => .text
    | "seq" => .sequence
    | "map" => .mapping
    | "set" => .set
    | "omap" => .orderedMapping
    | "pairs" => .pairs
    | "merge" => .merge
    | "value" => .default
    | _ => .unknown
  else .unknown

/-- A node of a document. -/
inductive Node where
  | scalar (tag : Tag) (text : String)
  | sequence (tag : Tag) (items : List Node)
  | mapping (tag : Tag) (mark : Option Nat) (members : List (Node × Node))
  deriving Inhabited

/-- The tag of a node. -/
def Node.tag : Node → Tag
  | .scalar tag _ => tag
  | .sequence tag _ => tag
  | .mapping tag _ _ => tag

end Reconciler.Yaml

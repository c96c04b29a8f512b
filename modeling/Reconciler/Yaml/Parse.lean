import Reconciler.Yaml.Resolve
import Reconciler.Yaml.Scan

/-!
# From tokens to nodes

Nodes are read by descent over the tokens. An alias gives the node of its anchor, which must
come before it in the same document; an anchor names one node in a document. A node that
contains itself is refused.

Each call uses up a token or is one of a fixed number of calls between two tokens, so the
number of tokens bounds the depth of calls.
-/

namespace Reconciler.Yaml

/-- What is known while the nodes of a document are read. -/
structure ParseState where
  tokens : List Token
  /-- What is wrong after the last token. -/
  flaw : Flaw
  /-- The handles of tags and what they stand for. -/
  handles : List (String × String) := []
  /-- The nodes with anchors. A node that is still being read has none. -/
  anchors : List (String × Option Node) := []
  /-- The next number for a mapping that may stand at several places. -/
  nextMark : Nat := 0
  deriving Inhabited

/-- Steps that read nodes. -/
abbrev Parser := StateT ParseState (Except Flaw)

namespace Parser

/-- The next token. -/
def peek : Parser Token := do
  let s ← get
  match s.tokens with
  | token :: _ => return token
  | [] => throw s.flaw

/-- Move over a token. -/
def advance : Parser Unit := modify fun s => { s with tokens := s.tokens.tail }

/-- The tokens do not have the form of a manifest. -/
def flawed : Parser α := throw .form

/-- Go on only if a condition holds. -/
def require (condition : Bool) : Parser Unit := if condition then pure () else flawed

/-- What handles stand for in every document. -/
def commonHandles : List (String × String) := [("!", "!"), ("!!", Tag.family)]

/-- A node that is not written. -/
def nothing : Node := .scalar .null ""

/-- The full name of a tag. -/
def tagName (tag : TagText) : Parser String :=
  match tag.handle with
  | none => return tag.suffix
  | some handle => do
    match (← get).handles.lookup handle with
    | some meaning => return meaning ++ tag.suffix
    | none => flawed

/-- The anchor and the tag of a node, in either order. -/
def properties : Parser (Option String × Option String) := do
  match ← peek with
  | .anchor anchor =>
    advance
    match ← peek with
    | .tag tag =>
      advance
      return (some anchor, some (← tagName tag))
    | _ => return (some anchor, none)
  | .tag tag =>
    advance
    match ← peek with
    | .anchor anchor =>
      advance
      return (some anchor, some (← tagName tag))
    | _ => return (none, some (← tagName tag))
  | _ => return (none, none)

/-- The tag of a text. The tag `!` has it resolved like plain text. -/
def scalarTag (name : Option String) (text : String) (isPlain : Bool) : Tag :=
  match name with
  | none => if isPlain then resolve text else .text
  | some "!" => resolve text
  | some name => .ofName name

/-- The tag of a collection. -/
def collectionTag (name : Option String) (usual : Tag) : Tag :=
  match name with
  | none | some "!" => usual
  | some name => .ofName name

/-- A number for a mapping under an anchor. -/
def newMark (anchored : Bool) : Parser (Option Nat) := do
  if anchored then
    let mark := (← get).nextMark
    modify fun s => { s with nextMark := mark + 1 }
    return some mark
  else return none

/-- Begin a node with an anchor, whose name must be new. -/
def beginAnchor (name : String) : Parser Unit := do
  require ((← get).anchors.lookup name).isNone
  modify fun s => { s with anchors := (name, none) :: s.anchors }

/-- The node of an anchor is complete. -/
def completeAnchor (name : String) (node : Node) : Parser Unit :=
  modify fun s => { s with anchors := (name, some node) :: s.anchors }

/-- The node to which an alias refers. -/
def aliased (name : String) : Parser Node := do
  match (← get).anchors.lookup name with
  | some (some node) => return node
  | _ => flawed

mutual

/-- A node. Block collections may start here if `inBlock` holds, and a sequence without
indentation of its own if `unindented` holds. -/
def node (inBlock unindented anchored : Bool) : Nat → Parser Node
  | 0 => flawed
  | fuel + 1 => do
    if let .alias name ← peek then
      advance
      aliased name
    else
      let (anchor, tag) ← properties
      match anchor with
      | none => content inBlock unindented anchored tag tag.isSome fuel
      | some name =>
        beginAnchor name
        let node ← content inBlock unindented true tag true fuel
        completeAnchor name node
        return node

/-- The content of a node after its anchor and tag; it may be missing after one of these. -/
def content (inBlock unindented anchored : Bool) (tag : Option String) (mayBeMissing : Bool) :
    Nat → Parser Node
  | 0 => flawed
  | fuel + 1 => do
    match ← peek with
    | .blockEntry =>
      if unindented then
        return .sequence (collectionTag tag .sequence) (← unindentedItems anchored fuel)
      else missing
    | .scalar text isPlain =>
      advance
      return .scalar (scalarTag tag text isPlain) text
    | .flowSequenceStart =>
      advance
      return .sequence (collectionTag tag .sequence) (← flowItems anchored true fuel)
    | .flowMappingStart =>
      advance
      let mark ← newMark anchored
      return .mapping (collectionTag tag .mapping) mark (← flowMembers anchored true fuel)
    | .blockSequenceStart =>
      if inBlock then
        advance
        return .sequence (collectionTag tag .sequence) (← blockItems anchored fuel)
      else missing
    | .blockMappingStart =>
      if inBlock then
        advance
        let mark ← newMark anchored
        return .mapping (collectionTag tag .mapping) mark (← blockMembers anchored fuel)
      else missing
    | _ => missing
where
  /-- A node without content. -/
  missing : Parser Node :=
    if mayBeMissing then return .scalar (scalarTag tag "" (tag.isNone)) "" else flawed

/-- The items of a block sequence. -/
def blockItems (anchored : Bool) : Nat → Parser (List Node)
  | 0 => flawed
  | fuel + 1 => do
    match ← peek with
    | .blockEntry =>
      advance
      let item ← match ← peek with
        | .blockEntry | .blockEnd => pure nothing
        | _ => node true false anchored fuel
      return item :: (← blockItems anchored fuel)
    | .blockEnd =>
      advance
      return []
    | _ => flawed

/-- The items of a sequence without indentation of its own. -/
def unindentedItems (anchored : Bool) : Nat → Parser (List Node)
  | 0 => flawed
  | fuel + 1 => do
    match ← peek with
    | .blockEntry =>
      advance
      let item ← match ← peek with
        | .blockEntry | .key | .value | .blockEnd => pure nothing
        | _ => node true false anchored fuel
      return item :: (← unindentedItems anchored fuel)
    | _ => return []

/-- The members of a block mapping. -/
def blockMembers (anchored : Bool) : Nat → Parser (List (Node × Node))
  | 0 => flawed
  | fuel + 1 => do
    match ← peek with
    | .key =>
      advance
      let key ← blockPart anchored fuel
      let value ← blockValue anchored fuel
      return (key, value) :: (← blockMembers anchored fuel)
    | .blockEnd =>
      advance
      return []
    | _ => flawed

/-- The value of a member of a block mapping, if it has one. -/
def blockValue (anchored : Bool) : Nat → Parser Node
  | 0 => flawed
  | fuel + 1 => do
    match ← peek with
    | .value =>
      advance
      blockPart anchored fuel
    | _ => return nothing

/-- A key or value in a block mapping, after its mark. -/
def blockPart (anchored : Bool) : Nat → Parser Node
  | 0 => flawed
  | fuel + 1 => do
    match ← peek with
    | .key | .value | .blockEnd => return nothing
    | _ => node true true anchored fuel

/-- The items of a flow sequence. A key among them starts a mapping with one member. -/
def flowItems (anchored first : Bool) : Nat → Parser (List Node)
  | 0 => flawed
  | fuel + 1 => do
    if let .flowSequenceEnd ← peek then
      advance
      return []
    if !first then
      match ← peek with
      | .flowEntry => advance
      | _ => flawed
    match ← peek with
    | .key =>
      advance
      let mark ← newMark anchored
      let key ← flowPart anchored fuel
      let value ← flowValue anchored fuel
      return .mapping .mapping mark [(key, value)] :: (← flowItems anchored false fuel)
    | .flowSequenceEnd =>
      advance
      return []
    | _ =>
      let item ← node false false anchored fuel
      return item :: (← flowItems anchored false fuel)

/-- The members of a flow mapping. -/
def flowMembers (anchored first : Bool) : Nat → Parser (List (Node × Node))
  | 0 => flawed
  | fuel + 1 => do
    if let .flowMappingEnd ← peek then
      advance
      return []
    if !first then
      match ← peek with
      | .flowEntry => advance
      | _ => flawed
    match ← peek with
    | .key =>
      advance
      let key ← flowPart anchored fuel
      let value ← flowValue anchored fuel
      return (key, value) :: (← flowMembers anchored false fuel)
    | .flowMappingEnd =>
      advance
      return []
    | _ =>
      let key ← node false false anchored fuel
      return (key, nothing) :: (← flowMembers anchored false fuel)

/-- The value of a member of a flow collection, if it has one. -/
def flowValue (anchored : Bool) : Nat → Parser Node
  | 0 => flawed
  | fuel + 1 => do
    match ← peek with
    | .value =>
      advance
      flowPart anchored fuel
    | _ => return nothing

/-- A key or value in a flow collection, after its mark. -/
def flowPart (anchored : Bool) : Nat → Parser Node
  | 0 => flawed
  | fuel + 1 => do
    match ← peek with
    | .value | .flowEntry | .flowSequenceEnd | .flowMappingEnd => return nothing
    | _ => node false false anchored fuel

end

/-! ### Documents -/

/-- The handles that the directives before a document give, and whether they name a
version. -/
def directives : Nat → Bool → Parser Unit
  | 0, _ => pure ()
  | fuel + 1, versioned => do
    match ← peek with
    | .directive directive =>
      advance
      match directive with
      | .version major =>
        require (!versioned && major == 1)
        directives fuel true
      | .handle name meaning =>
        require ((← get).handles.lookup name).isNone
        modify fun s => { s with handles := (name, meaning) :: s.handles }
        directives fuel versioned
      | .other => directives fuel versioned
    | _ => pure ()

/-- Move over the marks for the end of a document. -/
def skipEnds : Nat → Parser Unit
  | 0 => pure ()
  | fuel + 1 => do
    if let .documentEnd ← peek then
      advance
      skipEnds fuel

/-- A bound on the calls for the tokens ahead. -/
def bound : Parser Nat := return 6 * (← get).tokens.length + 16

/-- How a document starts: with a mark, or at once. -/
inductive Opening where
  | marked
  | unmarked

/-- Move to the start of the next document, if there is one. Only the first document may do
without a mark. -/
def opening? (first : Bool) : Parser (Option Opening) := do
  modify fun s => { s with handles := [] }
  let unmarked ← match ← peek with
    | .directive _ | .documentStart | .streamEnd => pure false
    | _ => pure first
  if unmarked then
    modify fun s => { s with handles := commonHandles }
    return some .unmarked
  skipEnds (← bound)
  if let .streamEnd ← peek then return none
  directives (← bound) false
  match ← peek with
  | .documentStart => advance
  | _ => flawed
  modify fun s => { s with handles := s.handles ++ commonHandles }
  return some .marked

/-- The root of a document, after its start. A document with a mark may be empty. -/
def root (opening : Opening) : Parser Node := do
  modify fun s => { s with anchors := [] }
  let isEmpty ← match opening, ← peek with
    | .marked, .directive _ => pure true
    | .marked, .documentStart => pure true
    | .marked, .documentEnd => pure true
    | .marked, .streamEnd => pure true
    | _, _ => pure false
  let root ← if isEmpty then pure nothing else node true false false (← bound)
  if let .documentEnd ← peek then advance
  return root

/-- The next document of a stream, if there is one. -/
def document? (first : Bool) : Parser (Option Node) := do
  match ← opening? first with
  | some opening => return some (← root opening)
  | none => return none

end Parser

end Reconciler.Yaml

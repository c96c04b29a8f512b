import Reconciler.Yaml.Cursor

/-!
# Tokens of a manifest

The text of a manifest is first cut into tokens. Beside the marks that are written, there
are tokens for the start and the end of the collections that only indentation shows.
-/

namespace Reconciler.Yaml

/-- The tag written at a node: a handle that abbreviates the start of the tag, if there is
one, and the rest. -/
structure TagText where
  handle : Option String
  suffix : String
  deriving Inhabited, DecidableEq

/-- A line that gives instructions for reading the document after it. -/
inductive Directive where
  /-- The version of the format; only its major number counts. -/
  | version (major : Nat)
  /-- The text for which a handle of tags stands. -/
  | handle (name : String) (meaning : String)
  /-- Any other instruction is ignored. -/
  | other
  deriving Inhabited

/-- The tokens. -/
inductive Token where
  | directive (directive : Directive)
  | documentStart
  | documentEnd
  | streamEnd
  | blockSequenceStart
  | blockMappingStart
  | blockEnd
  | flowSequenceStart
  | flowSequenceEnd
  | flowMappingStart
  | flowMappingEnd
  | flowEntry
  | blockEntry
  | key
  | value
  | alias (name : String)
  | anchor (name : String)
  | tag (tag : TagText)
  /-- Text, with the note whether it stands without quotes and block marks. -/
  | scalar (text : String) (isPlain : Bool)
  deriving Inhabited

end Reconciler.Yaml

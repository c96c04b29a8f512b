import Reconciler.Yaml.Construct
import Reconciler.Yaml.Parse

/-!
# Reading documents

A text is a stream of documents, which are read one after another. A flaw in the values of a
document is reported before flaws in the form of the documents after it.
-/

namespace Reconciler.Yaml

/-- Whether a character may occur in the text of a manifest. -/
def isAdmissible (c : Char) : Bool :=
  c == '\t' || c == '\n' || c == '\r' || c == '\x85' || (' ' ≤ c && c ≤ '~') ||
    ('\xa0' ≤ c && c != '\uFFFE' && c != '\uFFFF')

/-- The documents from a state on. Each has tokens of its own, so their number bounds the
number of documents. -/
def documentsFrom : Nat → Bool → ParseState → Except Flaw (List Tree)
  | 0, _, _ => .ok []
  | fuel + 1, first, state => do
    match ← Parser.document? first state with
    | (none, _) => return []
    | (some node, next) =>
      match construct 0 node with
      | .error trouble => throw trouble.flaw
      | .ok tree => return tree :: (← documentsFrom fuel false next)

/-- The documents of a text. -/
def documents (text : List Char) : Except Flaw (List Tree) :=
  if text.all isAdmissible then
    let tokens := scan text
    documentsFrom (tokens.tokens.length + 1) true
      { tokens := tokens.tokens, flaw := tokens.flaw.getD .form }
  else .error .form

end Reconciler.Yaml

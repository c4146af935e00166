import Pinhole.Yaml.Lexer
import Pinhole.Yaml.Reading

/-!
# The values of documents

A document is read from its characters to its value: its source is cut into tokens, the tokens are
put together to a node, and the node has a value.
-/

namespace Pinhole.Yaml

/-- The value of the one document of a source; nothing for a source without documents. -/
def read (s : Source) : Except Fault Value := do
  match ← Node.ofTokens (tokens s) with
  | some n => n.value
  | none => return .null

end Pinhole.Yaml

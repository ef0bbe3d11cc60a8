import Interlock.Yaml.Decode
import Interlock.Yaml.Lexer
import Interlock.Yaml.Lines
/-!
# The library for YAML

Documents in YAML: a record is written line by line, and a text is read into a node.
-/

namespace Interlock.Yaml

/-- The library for YAML. -/
def library : Document.Library where
  Node := Node
  write? fields := some (writeRecord fields)
  read? text := do Node.ofTokens? (← tokens? text.toList)
  isNull? := Node.isNull?
  truth? := Node.bool?
  number? := Node.natural?
  text? := Node.text?
  variant? := Node.variant?
  items? := Node.items?
  members? := Node.members?

end Interlock.Yaml

import Zeitnot.Config.Yaml.Build
import Zeitnot.Config.Yaml.Scanner
set_option autoImplicit false

namespace Zeitnot.Config.Yaml

def read (text : String) : Except Fault Value := do
  let tokens ← scan text
  match ← compose tokens with
  | some n => build (2 * tokens.length + 2) n
  | none => pure .null

end Zeitnot.Config.Yaml

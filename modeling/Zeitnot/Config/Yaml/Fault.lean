import Zeitnot.Config.Calendar
import Zeitnot.Text.Numeral
set_option autoImplicit false

namespace Zeitnot.Config.Yaml
open Text

inductive Fault
  /-- The text is no YAML, or no value is made of it. -/
  | malformed
  /-- An escape for a code point that no character has. -/
  | codePoint (code : Nat)
  | integer (fault : NumeralFault)
  | real (text : String)
  /-- A number without digits. -/
  | noDigits
  | truth (text : String)
  | notTimestamp
  | calendar (fault : CalendarFault)
  deriving DecidableEq, Repr

def Fault.message : Fault → String
  | .malformed => ""
  | .codePoint _ => "chr() arg not in range(0x110000)"
  | .integer fault => fault.message
  | .real text => "could not convert string to float: " ++ quoted text
  | .noDigits => "string index out of range"
  | .truth text => quoted text
  | .notTimestamp => "'NoneType' object has no attribute 'groupdict'"
  | .calendar fault => fault.message

end Zeitnot.Config.Yaml

/-!
The words of a YAML text, after indentation has been read as brackets.
-/
set_option autoImplicit false

namespace Zeitnot.Config.Yaml

inductive Token
  /-- The version that a text says it is written in, by its first number. -/
  | version (major : Nat)
  /-- A handle and what it stands for in tags. -/
  | handle (name meaning : String)
  /-- A directive without a meaning. -/
  | directive
  | documentStart
  | documentEnd
  | streamEnd
  | sequenceStart
  | mappingStart
  | blockEnd
  | flowSequenceStart
  | flowSequenceEnd
  | flowMappingStart
  | flowMappingEnd
  | flowEntry
  | blockEntry
  | key
  | value
  /-- A node that stands elsewhere under the name of an anchor. -/
  | reference (name : String)
  | anchor (name : String)
  | tag (handle : Option String) (suffix : String)
  | scalar (text : String) (plain : Bool)
  deriving DecidableEq, Repr

end Zeitnot.Config.Yaml

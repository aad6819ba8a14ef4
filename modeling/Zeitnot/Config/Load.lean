import Zeitnot.Config.Json
import Zeitnot.Config.Yaml
import Zeitnot.Folder
import Zeitnot.Options.Table
set_option autoImplicit false

namespace Zeitnot
open Config

inductive LoadFault
  | missing (file : String)
  | access (fault : FileFault)
  | json (fault : Json.Fault)
  | yaml (fault : Yaml.Fault)
  | option (fault : OptionFault)
  deriving Repr

def LoadFault.message : LoadFault → String
  | .missing file => s!"Config file not found: {file}"
  | .access fault => fault.message
  | .json .malformed => ""
  | .json (.numeral fault) => fault.message
  | .yaml fault => fault.message
  | .option fault => fault.message

namespace Options

def isYamlName (file : String) : Bool :=
  ".yaml".toList.isSuffixOf file.toList || ".yml".toList.isSuffixOf file.toList

def unifyLines : List Char → List Char
  | '\r' :: '\n' :: r => '\n' :: unifyLines r
  | '\r' :: r => '\n' :: unifyLines r
  | c :: r => c :: unifyLines r
  | [] => []

/-- The value that the text of a file holds. In YAML nothing, zero and whatever is empty count as
the empty mapping. -/
def readFile (file text : String) : Except LoadFault Value :=
  let text := String.ofList (unifyLines text.toList)
  if isYamlName file then
    match Yaml.read text with
    | .ok v => .ok (if v.isNothing then .mapping [] else v)
    | .error fault => .error (.yaml fault)
  else (Json.read text).mapError .json

def readEntries (folder : Folder) (file : String) : Except LoadFault (List (Value × Value)) :=
  match folder.find? file with
  | none => .error (.missing file)
  | some .directory => .error (.access (.isDirectory file))
  | some (.file text) =>
    match readFile file text with
    | .error fault => .error fault
    | .ok (.mapping entries) => .ok entries
    | .ok _ => .error (.option (.notMapping file))

/-- Sets the options that a file names. Those before one that is refused stay set. -/
def load (folder : Folder) (file : String) (o : Options) : Options × Except LoadFault Unit :=
  match readEntries folder file with
  | .error fault => (o, .error fault)
  | .ok entries =>
    let (o, result) := setAll file entries o
    (o, result.mapError .option)

def ofFile (folder : Folder) (file : String) : Except LoadFault Options :=
  let (o, result) := load folder file standard
  result.map fun _ => o

/-- What is asked of a table. A file is loaded from the folder as it is at that time. -/
inductive Operation
  | set (name : String) (raw : Value)
  | reset
  | load (folder : Folder) (file : String)

def perform (o : Options) : Operation → Options × Except LoadFault Unit
  | .set name raw =>
    match o.set name raw with
    | .ok o' => (o', .ok ())
    | .error fault => (o, .error (.option fault))
  | .reset => (o.reset, .ok ())
  | .load folder file => o.load folder file

def after (o : Options) : List Operation → Options
  | [] => o
  | op :: ops => (o.perform op).1.after ops

end Options
end Zeitnot

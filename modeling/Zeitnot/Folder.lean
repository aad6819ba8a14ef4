import Zeitnot.Text.Quoted
set_option autoImplicit false

namespace Zeitnot
open Text

inductive Entry
  | file (content : String)
  | directory
  deriving DecidableEq, Repr

/-- Names and entries, in the order in which they were made. -/
structure Folder where
  entries : List (String × Entry)
  deriving DecidableEq, Repr

inductive FileFault
  | missing (name : String)
  | isDirectory (name : String)
  /-- A file stands where a folder is meant. -/
  | notDirectory (name : String)
  deriving DecidableEq, Repr

def FileFault.message : FileFault → String
  | .missing name => "[Errno 2] No such file or directory: " ++ quoted name
  | .isDirectory name => "[Errno 21] Is a directory: " ++ quoted name
  | .notDirectory name => "[Errno 20] Not a directory: " ++ quoted name

namespace Folder

def empty : Folder := ⟨[]⟩

def parts (name : List Char) : List (List Char) :=
  ((name.splitBy fun a b => a ≠ '/' && b ≠ '/').filter (· ≠ ['/'])).filter (· ≠ ['.'])

/-- What a name stands for: the folder itself, one of its entries, or nothing. -/
def find? (f : Folder) (name : String) : Option Entry :=
  if name.isEmpty then none
  else
    let ps := parts name.toList
    if ps.isEmpty || ps = ["..".toList] then some .directory
    else
      match f.entries.find? fun e => parts e.1.toList = ps with
      | some (_, .file content) =>
        if name.toList.getLast? = some '/' then none else some (.file content)
      | some (_, .directory) => some .directory
      | none =>
        if f.entries.any fun e => ps.isPrefixOf (parts e.1.toList) then some .directory else none

def content? (f : Folder) (name : String) : Option String :=
  match f.find? name with
  | some (.file content) => some content
  | _ => none

def put (f : Folder) (name : String) (e : Entry) : Folder :=
  if f.entries.any (·.1 == name) then
    ⟨f.entries.map fun old => if old.1 = name then (name, e) else old⟩
  else ⟨f.entries ++ [(name, e)]⟩

def parentFault? (f : Folder) (name : String) : Option FileFault :=
  match (parts name.toList).dropLast with
  | [] => none
  | ps =>
    match f.find? (String.ofList (List.intercalate ['/'] ps)) with
    | some .directory => none
    | some (.file _) => some (.notDirectory name)
    | none => some (.missing name)

def append (f : Folder) (name text : String) : Except FileFault Folder :=
  if name.isEmpty then .error (.missing name)
  else
    match f.find? name with
    | some .directory => .error (.isDirectory name)
    | some (.file content) =>
      let same := f.entries.find? fun e => parts e.1.toList = parts name.toList
      let key := (same.map (·.1)).getD name
      .ok (f.put key (.file (content ++ text)))
    | none =>
      match f.parentFault? name with
      | some fault => .error fault
      | none => .ok (f.put name (.file text))

end Folder
end Zeitnot

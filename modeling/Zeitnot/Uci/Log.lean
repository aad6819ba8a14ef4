import Zeitnot.Folder
import Zeitnot.Uci.Protocol
set_option autoImplicit false

namespace Zeitnot.Uci

def stamped (stamp line : String) : String := "[" ++ stamp ++ "] " ++ line ++ "\n"

def writeLog (name stamp : String) : List String → Folder → List String × Folder
  | [], f => ([], f)
  | line :: rest, f =>
    match f.append name (stamped stamp line) with
    | .ok f => writeLog name stamp rest f
    | .error fault =>
      let (complaints, f) := writeLog name stamp rest f
      (("log write failed: " ++ fault.message) :: complaints, f)

structure Logged (S : Type) where
  state : State S
  log : Option String
  folder : Folder

structure Exchange where
  out : List String
  complaints : List String
  deriving DecidableEq, Repr

section
variable {S : Type}

def Logged.flush (l : Logged S) (stamp : String) : List String × Logged S :=
  let (lines, journal) := l.state.session.journal.drain
  let l := { l with state := { l.state with session := { l.state.session with journal } } }
  match l.log with
  | none => ([], l)
  | some name =>
    let (complaints, folder) := writeLog name stamp lines l.folder
    (complaints, { l with folder })

variable [Number.Scalar S]

def Logged.receive (l : Logged S) (stamp line : String) : Option (Exchange × Logged S) :=
  (l.state.receive line).map fun (out, state) =>
    let (complaints, l) := { l with state }.flush stamp
    (⟨out, complaints⟩, l)

def Logged.converse (stamp : String) : Logged S → List String → List (Exchange × Logged S)
  | _, [] => []
  | l, line :: rest =>
    match l.receive stamp line with
    | none => []
    | some (x, l) => (x, l) :: converse stamp l rest

end
end Zeitnot.Uci

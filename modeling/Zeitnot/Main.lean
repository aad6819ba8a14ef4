import Std.Time
import Zeitnot.Cli.Converse
import Zeitnot.Cli.Simulate
/-!
The program. Without a command it holds a conversation on standard input and output; the command
`simulate` prints a table of allocations instead.
-/
set_option autoImplicit false

namespace Zeitnot
open Uci

def folderWith (file : String) : IO Folder := do
  try
    let text ← IO.FS.readFile file
    return Folder.empty.put file (.file text)
  catch _ => return Folder.empty

def timeStamp : IO String := do
  let now ← Std.Time.PlainDateTime.now
  return now.format "uuuu-MM-dd HH:mm:ss"

def saveJournal (log : String) (u : State Float) : IO (State Float) := do
  let (lines, journal) := u.session.journal.drain
  unless lines.isEmpty do
    let stamp ← timeStamp
    try
      let handle ← IO.FS.Handle.mk log .append
      handle.putStr (String.join (lines.map (stamped stamp)))
    catch e => IO.eprintln s!"log write failed: {e}"
  return { u with session := { u.session with journal } }

def firstGuess : Nat := 50000

/-- Answers lines until the conversation ends. A search measures how long a node takes, for the
clock of the next. -/
partial def converseFrom (log : String) (u : State Float) : IO Unit := do
  let stdin ← IO.getStdin
  let stdout ← IO.getStdout
  let line ← stdin.getLine
  if line.isEmpty then return
  let start ← IO.monoNanosNow
  match { u with clock := { u.clock with base := start } }.receive line with
  | none => return
  | some (out, u) =>
    for answer in out do stdout.putStrLn answer
    stdout.flush
    let u ← saveJournal log u
    let spent := (← IO.monoNanosNow) - start
    let searched := (u.clock.base - start) / u.clock.perNode
    let perNode : Int := if 0 < searched then max 1 (spent / searched) else u.clock.perNode
    converseFrom log { u with clock := { u.clock with perNode } }

def converse (args : List String) : IO UInt32 := do
  let usage := "usage: [--config FILE] [--log-file FILE]"
  match Cli.converseSpec.read args with
  | .refused =>
    IO.eprintln usage
    return 2
  | .help =>
    IO.println usage
    return 0
  | .given _ flags =>
    let config := Cli.lastValue? flags "--config"
    let log := (Cli.lastValue? flags "--log-file").getD Cli.defaultLog
    let folder ← match config with
      | some file => folderWith file
      | none => pure Folder.empty
    match Cli.setUp Constants.tuned .standard ⟨0, firstGuess⟩ config (some log) folder with
    | .error fault =>
      IO.eprintln fault.message
      return 1
    | .ok start =>
      converseFrom log start.state
      return 0

def simulate (args : List String) : IO UInt32 := do
  let (lines, ending) := Cli.simulateCommand args
  for line in lines do IO.println line
  match ending with
  | .exit code => return code.toUInt32
  | .failed fault =>
    IO.eprintln fault.message
    return 1

end Zeitnot

def main (args : List String) : IO UInt32 :=
  match args with
  | "simulate" :: rest => Zeitnot.simulate rest
  | _ => Zeitnot.converse args

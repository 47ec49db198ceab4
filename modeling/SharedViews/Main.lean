import SharedViews.CommandLine.Outcome
import SharedViews.Inspection.Exchange

/-! The program.

It has no sockets of its own: `serve` answers on the standard streams, one
connection to a line, so that any listener can stand in front of it, and the
commands that inspect a served engine find none to connect to. -/
namespace SharedViews

/-- The text of a file, or why there is none. -/
def readText (path : String) : IO (Except ReadFailure String) := do
  try
    match String.fromUTF8? (← IO.FS.readBinFile path) with
    | some text => return .ok text
    | none => return .error .notText
  catch
    | .inappropriateType _ 21 _ => return .error .isADirectory
    | .inappropriateType .. => return .error .notADirectory
    | _ => return .error .notFound

/-- The given files as they are now. -/
def readFiles (paths : List String) : IO Files := do
  let texts ← paths.mapM fun path => return (path, ← readText path)
  return fun path => (texts.lookup path).getD (.error .notFound)

/-- Answers a request on each line until the input ends. -/
partial def serveLines (input output : IO.FS.Stream) (e : Engine) : IO Unit := do
  let line ← input.getLine
  if line.isEmpty then return
  let (answer, e) := Inspection.exchange line.toUTF8 e
  if let some answer := answer then
    output.putStr (Inspection.answerLine answer)
    output.flush
  serveLines input output e

/-- Prints what a command leaves, and gives its status. -/
def finish (outcome : CommandLine.Outcome) : IO UInt32 := do
  IO.print outcome.output
  return UInt32.ofNat outcome.status

/-- Does what the words of a command line ask for. -/
def perform (words : List String) : IO UInt32 := do
  let fromEnvironment ← IO.getEnv CommandLine.socketVariable
  match CommandLine.parse words fromEnvironment with
  | .ok {command := .serve options, socketPath} =>
    let files ← readFiles (CommandLine.paths (.serve options))
    let some e := CommandLine.beginServing files options socketPath .nothing
      | finish .failed
    serveLines (← IO.getStdin) (← IO.getStdout) e
    return 0
  | .ok {command, ..} =>
    let files ← readFiles (CommandLine.paths command)
    finish (CommandLine.outcome files none command).1
  | .error fault => finish (.ofFault fault fromEnvironment)

end SharedViews

def main (words : List String) : IO UInt32 := SharedViews.perform words

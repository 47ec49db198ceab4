import SharedViews.CommandLine.Help
import SharedViews.Inspection.Query
import SharedViews.Settings

/-! How a command ends.

A command leaves a text on the standard output and a status: zero when it did
what it was asked, two when the words of the command line are at fault, one for
every other failure, and a failed command prints nothing. `serve` ends only if it
cannot begin, or is interrupted, and then it leaves nothing at its socket's
path. -/
namespace SharedViews.CommandLine

structure Outcome where
  status : Nat
  output : String := ""
  deriving DecidableEq, Inhabited, Repr

def Outcome.failed : Outcome := {status := 1}

def Outcome.ofText : Option String → Outcome
  | some output => {status := 0, output}
  | none => .failed

/-- A command line that is at fault, or asks for help. -/
def Outcome.ofFault (fault : Fault) (fromEnvironment : Option String) : Outcome :=
  match fault with
  | .help command => {status := fault.status, output := helpPage command fromEnvironment}
  | _ => {status := fault.status}

/-! ### Documents -/

/-- The document for a fragment file, for a context that is nowhere else. -/
def assemble (files : Files) (fragment : String) (shell : Option String) (contextId : String) :
    Outcome :=
  match files fragment with
  | .error _ => .failed
  | .ok content =>
    let source := match shell with
      | some path => Shell.path path
      | none => .inline builtInShell
    let c : LiveContext := {id := contextId, route := "/", session := "preview"}
    match ({shell := source} : Assembler).build files content c contextId with
    | .ok html => {status := 0, output := html}
    | .error _ => .failed

/-! ### Serving -/

/-- What is at the socket's path before an engine is served there. -/
inductive Occupant
  | nothing
  | file
  /-- A socket that nobody listens at. -/
  | deadSocket
  | servedEngine
  deriving DecidableEq, Inhabited, Repr

/-- Whether something can be connected to. Everything else makes room. -/
def Occupant.listens : Occupant → Bool
  | servedEngine => true
  | _ => false

/-- The settings an engine is served with: those of the file, then what the
command line says in their place. -/
def serveSettings (files : Files) (options : ServeOptions) (socketPath : Option String) :
    Except Settings.Failure Settings := do
  let s ← match options.settings with
    | some path => Settings.ofFile files path
    | none => pure {}
  return {s with
    cleanupDelay := options.cleanupDelay.getD s.cleanupDelay
    shell := options.shell.or s.shell
    socketPath := socketPath.or s.socketPath}

/-- An engine with the given settings. -/
def engineOf (s : Settings) (files : Files) : Engine := .start s.assembler files s.cleanupDelay

/-- The engine that `serve` begins with; `none` if its settings cannot be had or
its socket is taken. -/
def beginServing (files : Files) (options : ServeOptions) (socketPath : Option String)
    (found : Occupant) : Option Engine :=
  match serveSettings files options socketPath with
  | .ok s => if found.listens then none else some (engineOf s files)
  | .error _ => none

/-! ### All commands -/

/-- The files a command reads. -/
def paths : Command → List String
  | .serve options => options.settings.toList
  | .assemble fragment shell _ => fragment :: shell.toList
  | _ => []

/-- A command other than `serve`, with the engine at the other end of the socket if
one is there. -/
def outcome (files : Files) (served : Option Engine) (command : Command) :
    Outcome × Option Engine :=
  match command, served with
  | .assemble fragment shell contextId, _ => (assemble files fragment shell contextId, served)
  | _, none => (.failed, none)
  | command, some e =>
    let (text, e) := Inspection.commandText command e
    (.ofText text, some e)

/-- What a command line other than one for `serve` comes to. -/
def run (files : Files) (served : Option Engine) (words : List String)
    (fromEnvironment : Option String) : Outcome × Option Engine :=
  match parse words fromEnvironment with
  | .error fault => (.ofFault fault fromEnvironment, served)
  | .ok invocation => outcome files served invocation.command

end SharedViews.CommandLine

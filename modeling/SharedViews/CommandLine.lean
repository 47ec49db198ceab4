import SharedViews.CommandLine.Grammar

/-! The command line.

The program serves an engine, asks a serving one for its statistics, contexts or
clients, has it drop the views of a scope, or assembles one document from files.
The socket's path may be given before the command or behind it, and the place
behind it counts first; if it is given in neither, the environment's counts. -/
namespace SharedViews

/-- What `serve` is told, in place of its settings file. -/
structure ServeOptions where
  settings : Option String := none
  cleanupDelay : Option Nat := none
  shell : Option String := none
  deriving DecidableEq, Inhabited, Repr

inductive Command
  | serve (options : ServeOptions)
  | stats
  | contexts
  | clients
  | invalidate (scope : String)
  | assemble (fragment : String) (shell : Option String) (contextId : String)
  deriving DecidableEq, Inhabited, Repr

structure Invocation where
  socketPath : Option String
  command : Command
  deriving DecidableEq, Inhabited, Repr

namespace CommandLine

/-- The variable of the environment that may hold the socket's path. -/
def socketVariable : String := "VIEWSYNC_SOCKET"

/-- The context id of a document that is assembled for no live context. -/
def defaultContextId : String := "preview"

inductive CommandName
  | serve
  | stats
  | contexts
  | clients
  | invalidate
  | assemble
  deriving DecidableEq, Inhabited, Repr

namespace CommandName

def all : List CommandName := [serve, stats, contexts, clients, invalidate, assemble]

def text : CommandName → String
  | serve => "serve"
  | stats => "stats"
  | contexts => "contexts"
  | clients => "clients"
  | invalidate => "invalidate"
  | assemble => "assemble"

def ofText? (text : String) : Option CommandName := all.find? (·.text == text)

def about : CommandName → String
  | serve => "Start the engine with its inspection socket"
  | stats => "Print render and cache statistics"
  | contexts => "List registered contexts and pending cleanups"
  | clients => "List connected clients"
  | invalidate => "Drop cached views for a scope (e.g. ROUTE:/home)"
  | assemble => "Wrap a fragment file in a shell template and print the document"

end CommandName

def socketOption : Argument :=
  {name := "socket-path", short := some 's'
   about := "UDS socket path (default: /tmp/viewsync-$USER/viewsync.sock)"
   fallback := some (.environment socketVariable)}

/-- What the words behind a command may be. -/
def CommandName.level (name : CommandName) : Level :=
  match name with
  | serve =>
    {name := name.text
     options := [
      {name := "config", short := some 'c', kind := .path, about := "TOML config file"},
      socketOption,
      {name := "cleanup-delay-ms", kind := .count
       about := "Grace period before a disconnected context is destroyed, in milliseconds"},
      {name := "shell", kind := .path, about := "Shell template path"}]}
  | stats | contexts | clients => {name := name.text, options := [socketOption]}
  | invalidate =>
    {name := name.text, options := [socketOption], positional := some {name := "scope"}}
  | assemble =>
    {name := name.text
     options := [
      socketOption,
      {name := "shell", kind := .path, about := "Shell template path (default: built-in shell)"},
      {name := "context-id", about := "Context id written into the document"
       fallback := some (.text defaultContextId)}]
     positional := some {name := "fragment", kind := .path, about := "Fragment file to embed"}}

def helpWord : String := "help"

/-- The level of the program itself. -/
def top : Level :=
  {options := [socketOption], commands := CommandName.all.map (·.text) ++ [helpWord]}

def required (r : Reading) (name : String) : Except Fault String :=
  match r.get? name with
  | some word => .ok word
  | none => .error .missingArgument

/-- A command from what its level was given. -/
def commandOf (name : CommandName) (r : Reading) : Except Fault Command := do
  match name with
  | .serve =>
    return .serve {
      settings := r.get? "config"
      cleanupDelay := r.get? "cleanup-delay-ms" >>= parseCount
      shell := r.get? "shell"}
  | .stats => return .stats
  | .contexts => return .contexts
  | .clients => return .clients
  | .invalidate => return .invalidate (← required r "scope")
  | .assemble =>
    return .assemble (← required r "fragment") (r.get? "shell")
      ((r.get? "context-id").getD defaultContextId)

/-- What is behind `help`: names of commands, of which only the first can have
any below it. -/
def helpFault : List String → Fault
  | [] => .help ""
  | [name] => if top.commands.contains name then .help name else .unknownCommand
  | _ => .unknownCommand

/-- The words behind the program's name, with the socket's path from the
environment. -/
def parse (words : List String) (fromEnvironment : Option String) : Except Fault Invocation := do
  let (r, next) ← top.run {} words
  match next with
  | none =>
    let r ← r.settle
    if r.values.isEmpty && fromEnvironment.isNone then throw .nothingGiven
    else throw .missingCommand
  | some (word, rest) =>
    let some name := CommandName.ofText? word | throw (helpFault rest)
    let (inner, _) ← name.level.run {} rest
    let inner ← inner.settle
    let command ← commandOf name inner
    let r ← r.settle
    return {
      socketPath := (inner.get? socketOption.name).or <|
        (r.get? socketOption.name).or fromEnvironment
      command}

end CommandLine
end SharedViews

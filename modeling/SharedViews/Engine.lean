import SharedViews.Document
import SharedViews.Engine.Operation
import SharedViews.Presence
import SharedViews.Render.Traffic
import SharedViews.Template.Library

/-! The engine: renders, contexts and documents together.

The engine holds the traffic of renders, who is present, what pages inject into
documents, the files it may read, and a clock in milliseconds. A first load registers its context,
renders a view for it alone and puts the result into the shell; an update renders
a view for a live context. Both are in two parts, because the view runs in between
and anything may happen meanwhile; the second part of a first load is in two steps
again, because a file takes time to read. -/
namespace SharedViews

/-- Why a view gives no html. -/
inductive ViewError
  | failed (message : String)
  | template (missing : Template.Missing)
  deriving DecidableEq, Inhabited, Repr

def ViewError.message : ViewError → String
  | .failed message => message
  | .template missing => missing.message

/-- Why a first load or an update gives no html. -/
inductive RenderError
  | view (cause : ViewError)
  | document (cause : ShellError)
  | unknownContext (id : ContextId)
  deriving DecidableEq, Inhabited, Repr

def RenderError.message : RenderError → String
  | .view cause => "view render failed: " ++ cause.message
  | .document cause => cause.message
  | .unknownContext id => "unknown context: " ++ id

/-- A first load whose view has ended has its result, or it has a fragment and waits for the
shell; what pages inject from then on is not for its document. -/
inductive Loading
  | done (result : Except RenderError String)
  | fragment (content : String) (documents : Assembler)

structure Engine where
  traffic : Traffic ViewError
  presence : Presence TeardownHook
  documents : Assembler
  files : Files
  /-- The text of a shell file, once it has been read. -/
  shell : Option String
  /-- The grace period in milliseconds. -/
  cleanupDelay : Nat
  now : Nat
  deriving Inhabited

namespace Engine

def start (documents : Assembler) (files : Files) (cleanupDelay : Nat) : Engine :=
  ⟨.empty, .empty, documents, files, none, cleanupDelay, 0⟩

/-- Whether a scope holds a cached view. -/
def holds (e : Engine) (scope : Scope) : Bool := e.traffic.flights.cache.holds scope

def onTraffic (e : Engine) (event : Event ViewError) : Engine :=
  {e with traffic := e.traffic.step event}

/-! ### Contexts and clients -/

/-- The page of a client is open: a pending cleanup is taken back. -/
def connect (e : Engine) (client : Client) : Engine :=
  {e with presence := (e.presence.cancel client.id).addClient client}

/-- Sets a cleanup timer from now. -/
def schedule (e : Engine) (id : ContextId) (delay : Nat) : Engine :=
  {e with presence := e.presence.schedule id (e.now + delay)}

/-- The page of a client is gone: its record goes now, its context after the
grace period. -/
def disconnect (e : Engine) (id : ContextId) : Engine :=
  schedule {e with presence := e.presence.dropClient id} id e.cleanupDelay

/-! ### Signals -/

def writeSignal (e : Engine) (scope : Scope) (key : String) (value : Json) : Engine :=
  onTraffic {e with presence := {e.presence with
    signals := e.presence.signals.insert scope key value}} (.invalidate scope)

/-! ### First loads and updates -/

def requestOf (scope : Scope) (kind : RenderKind) (c : LiveContext) : Request :=
  ⟨scope, kind, c.cacheUpdates⟩

/-- Registers the context; its view may start. -/
def beginFirstLoad (e : Engine) (call : Nat) (scope : Scope) (c : LiveContext) : Engine :=
  onTraffic {e with presence := e.presence.register c}
    (.arrive call (requestOf scope .initial c) 0.0)

/-- The text of a shell. A file is read once and remembered; a failed read is
not. -/
def shellText (e : Engine) (shell : Shell) : Except ShellError String × Engine :=
  match shell, e.shell with
  | .inline text, _ => (.ok text, e)
  | .path _, some text => (.ok text, e)
  | .path path, none =>
    match e.files path with
    | .ok text => (.ok text, {e with shell := some text})
    | .error cause => (.error (.shell path cause), e)

/-- The text of the shell that the documents have. -/
def recallShell (e : Engine) : Except ShellError String × Engine := e.shellText e.documents.shell

/-- Where a first load stands once the view has ended. -/
def loading (e : Engine) : Except ViewError String → Loading
  | .error cause => .done (.error (.view cause))
  | .ok content =>
    if isWholeDocument content then .done (.ok content) else .fragment content e.documents

/-- What the first load gives, once there is a shell if it waits for one. -/
def finishLoading (e : Engine) (c : LiveContext) : Loading → Except RenderError String × Engine
  | .done result => (result, e)
  | .fragment content documents =>
    let (shell, e) := e.shellText documents.shell
    let result := match shell with
      | .ok shell => .ok (documents.wrap shell content c c.id)
      | .error cause => .error (.document cause)
    (result, e)

/-- A first load whose view has ended and that need not wait for its shell. -/
def finishFirstLoad (e : Engine) (c : LiveContext) (result : Except ViewError String) :
    Except RenderError String × Engine :=
  e.finishLoading c (e.loading result)

/-- Starts an update for a live context; `none` for an unknown id. -/
def beginUpdate (e : Engine) (call : Nat) (scope : Scope) (id : ContextId) (seconds : Float) :
    Option Engine :=
  e.presence.contexts[id]?.map fun c =>
    e.onTraffic (.arrive call (requestOf scope .update c) seconds)

/-- What an update gives once its call has returned. -/
def finishUpdate (result : Except ViewError String) : Except RenderError String :=
  result.mapError .view

end Engine
end SharedViews

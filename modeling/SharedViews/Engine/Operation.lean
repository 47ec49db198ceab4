import SharedViews.Client
import SharedViews.Context
import SharedViews.File

/-! Operations on the engine that neither render nor wait.

A teardown hook is a name and the operations it issues; since an operation may
register a context, and a context carries hooks, the two are defined together. -/
namespace SharedViews

mutual

inductive Operation
  | register (context : Context TeardownHook)
  | unregister (id : ContextId)
  | navigate (id : ContextId) (route : String)
  | joinCustom (id : ContextId) (scope : Scope)
  | leaveCustom (id : ContextId) (scope : Scope)
  | edit (id : ContextId) (edits : List Edit)
  /-- Adds a teardown hook to a live context. -/
  | onTeardown (id : ContextId) (hook : TeardownHook)
  /-- Sets a cleanup timer; without a delay, after the configured grace period. -/
  | schedule (id : ContextId) (delay : Option Nat)
  | cancel (id : ContextId)
  | addClient (client : Client)
  | dropClient (id : ContextId)
  | connect (client : Client)
  | disconnect (id : ContextId)
  | setGlobal (key : String) (value : Json)
  | injectHead (html : String)
  | injectFoot (html : String)
  /-- Writes a signal, which drops the views cached for its scope. -/
  | writeSignal (scope : Scope) (key : String) (value : Json)
  | removeSignal (scope : Scope) (key : String)
  | addAction (scope : Scope) (key handler : String)
  /-- Changes membership alone, not the context. -/
  | enroll (scope : Scope) (id : ContextId)
  | withdraw (scope : Scope) (id : ContextId)
  | invalidate (scope : Scope)
  | clearCache
  | resetDurations
  /-- A file that the engine may read is written, or taken away. -/
  | putFile (path : String) (content : Except ReadFailure String)
  /-- A request of the inspection protocol. -/
  | inspect (method : String) (params : Json)

inductive TeardownHook
  | mk (name : String) (operations : List Operation)

end

namespace TeardownHook

def name : TeardownHook → String
  | mk name _ => name

def operations : TeardownHook → List Operation
  | mk _ operations => operations

end TeardownHook

/-- A context of the engine. -/
abbrev LiveContext := Context TeardownHook

end SharedViews

import SharedViews.Scope.Membership
import SharedViews.Signal

/-! Contexts: the server's side of one open page.

A context is on a route and in a session, has joined any number of custom
scopes, and binds signals by id. It belongs to the global scope, its route's, its
session's and the custom ones; only the last are its own to change. Teardown
hooks are kept in the order of registration; what a hook is, the context does not
say. -/
namespace SharedViews
open Std

abbrev SessionId := String

structure Context (Hook : Type) where
  id : ContextId
  route : String
  session : SessionId
  /-- The names of the custom scopes it has joined. -/
  joined : ExtTreeSet String := ∅
  signals : ExtTreeMap String Json := ∅
  cacheUpdates : Bool := true
  hooks : List Hook := []

/-- A context at a glance. -/
structure ContextProfile where
  id : ContextId
  route : String
  session : SessionId
  scopes : List Scope
  signalCount : Nat
  cacheUpdates : Bool
  deriving DecidableEq, Inhabited, Repr

namespace Context
variable {Hook : Type}

instance : Inhabited (Context Hook) := ⟨{id := "", route := "", session := ""}⟩

/-! ### Scopes -/

/-- The scopes every context belongs to. -/
def givenScopes (c : Context Hook) : ExtTreeSet Scope :=
  .ofList [Scope.global, .route c.route, .session c.session]

def scopes (c : Context Hook) : ExtTreeSet Scope :=
  c.givenScopes.insertMany (c.joined.toList.map Scope.custom)

/-- Joins a custom scope; answers whether it is new. Other kinds are refused. -/
def joinCustom (c : Context Hook) (scope : Scope) : Bool × Context Hook :=
  match scope with
  | .custom name => (!c.joined.contains name, {c with joined := c.joined.insert name})
  | _ => (false, c)

/-- Leaves a custom scope; answers whether it was joined. -/
def leaveCustom (c : Context Hook) (scope : Scope) : Bool × Context Hook :=
  match scope with
  | .custom name => (c.joined.contains name, {c with joined := c.joined.erase name})
  | _ => (false, c)

/-! ### Signals -/

/-- Binds a signal, in place of an earlier one of the same id. -/
def bind (c : Context Hook) (s : Signal) : Context Hook :=
  {c with signals := c.signals.insert s.id s.value}

def unbind (c : Context Hook) (id : String) : Context Hook :=
  {c with signals := c.signals.erase id}

def signal? (c : Context Hook) (id : String) : Option Signal := c.signals[id]?.map (Signal.mk id)

/-- The bound signals in the order of their ids. -/
def boundSignals (c : Context Hook) : List Signal :=
  c.signals.toList.map fun (id, value) => ⟨id, value⟩

/-- Adds a teardown hook after the ones it has. -/
def onTeardown (c : Context Hook) (hook : Hook) : Context Hook :=
  {c with hooks := c.hooks ++ [hook]}

def profile (c : Context Hook) : ContextProfile :=
  { id := c.id
    route := c.route
    session := c.session
    scopes := c.scopes.toList
    signalCount := c.signals.size
    cacheUpdates := c.cacheUpdates }

end Context

/-! ### Edits -/

/-- A change to a context. -/
inductive Edit
  | setRoute (route : String)
  | joinCustom (scope : Scope)
  | leaveCustom (scope : Scope)
  | bind (signal : Signal)
  | unbind (id : String)
  | setCacheUpdates (on : Bool)

/-- What an edit answers. -/
inductive EditAnswer
  | done
  | changed (did : Bool)
  | unbound (signal : Option Signal)

def Edit.apply {Hook : Type} (e : Edit) (c : Context Hook) : EditAnswer × Context Hook :=
  match e with
  | .setRoute route => (.done, {c with route})
  | .joinCustom scope => let (did, c) := c.joinCustom scope; (.changed did, c)
  | .leaveCustom scope => let (did, c) := c.leaveCustom scope; (.changed did, c)
  | .bind signal => (.done, c.bind signal)
  | .unbind id => (.unbound (c.signal? id), c.unbind id)
  | .setCacheUpdates on => (.done, {c with cacheUpdates := on})

/-- A list of edits, first to last, with their answers. -/
def Edit.applyAll {Hook : Type} : List Edit → Context Hook → List EditAnswer × Context Hook
  | [], c => ([], c)
  | e :: rest, c =>
    let (answer, c) := e.apply c
    let (answers, c) := applyAll rest c
    (answer :: answers, c)

end SharedViews

import SharedViews.Client
import SharedViews.Context
import SharedViews.Scope.Table

/-! Presence: which contexts are live, and for how long.

A context is live from its registration until it is unregistered, by request or
by a timer. Membership is kept in step with the scopes of the live contexts, and
when a scope loses its last member, the signals and actions stored under it are
dropped.

A context whose page went away gets a grace period: `schedule` sets a timer, and
when it fires with nothing having intervened, the context is removed. Timers and
registrations take their generations from one counter. A firing timer counts only
if its generation is the pending one, so one that was replaced or cancelled is
inert even if it had slept to its end. Teardown hooks run between the two halves
of a firing, `beginFiring` and `finishFiring`, and may do anything; the second
half removes the context only if its registration is still the one that was torn
down and no new timer is pending. -/
namespace SharedViews
open Std

/-- A timer that sleeps. -/
structure Timer where
  id : ContextId
  due : Nat
  deriving DecidableEq, Inhabited, Repr

structure Presence (Hook : Type) where
  contexts : ExtTreeMap ContextId (Context Hook)
  clients : ExtTreeMap ContextId Client
  globals : ExtTreeMap String Json
  sessions : ExtTreeMap ContextId SessionId
  /-- The generation of each live context's registration. -/
  registrations : ExtTreeMap ContextId Nat
  /-- The generation of each pending cleanup. -/
  pending : ExtTreeMap ContextId Nat
  /-- The sleeping timers by generation. -/
  timers : ExtTreeMap Nat Timer
  /-- The latest generation. It has no largest value: where a word of 64 bits counts them, no
  process lives to see it wrap. -/
  lastGeneration : Nat
  scopes : Membership
  signals : ScopeTable Json
  actions : ScopeTable String
  deriving Inhabited

/-- What a firing timer has found: the context to be torn down, and its
registration. -/
structure Firing (Hook : Type) where
  context : Context Hook
  registration : Option Nat

namespace Presence
variable {Hook : Type}

def empty : Presence Hook := ⟨∅, ∅, ∅, ∅, ∅, ∅, ∅, 0, .empty, .empty, .empty⟩

/-! ### Membership -/

/-- Drops what is stored under a scope that has no member left. -/
def reclaim (p : Presence Hook) (scope : Scope) : Presence Hook :=
  {p with signals := p.signals.dropScope scope, actions := p.actions.dropScope scope}

def join (id : ContextId) (p : Presence Hook) (scope : Scope) : Presence Hook :=
  {p with scopes := (p.scopes.join scope id).2}

/-- Takes the context out of a scope, and reclaims the scope if that empties it. -/
def leave (id : ContextId) (p : Presence Hook) (scope : Scope) : Presence Hook :=
  let (emptied, scopes) := p.scopes.leave scope id
  let p := {p with scopes}
  if emptied then p.reclaim scope else p

/-- Brings membership from one set of scopes to another. Joins come first, so a
scope that is kept is never empty in between. -/
def realign (p : Presence Hook) (id : ContextId) (before after : ExtTreeSet Scope) :
    Presence Hook :=
  let joined := (after.toList.filter (!before.contains ·)).foldl (join id) p
  (before.toList.filter (!after.contains ·)).foldl (leave id) joined

/-! ### Pending cleanups -/

def isPending (p : Presence Hook) (id : ContextId) : Bool := p.pending.contains id

/-- Takes a pending cleanup back, and its timer with it. -/
def cancel (p : Presence Hook) (id : ContextId) : Presence Hook :=
  match p.pending[id]? with
  | some generation =>
    {p with pending := p.pending.erase id, timers := p.timers.erase generation}
  | none => p

/-- Sets a timer for the context, in place of the one it may have. -/
def schedule (p : Presence Hook) (id : ContextId) (due : Nat) : Presence Hook :=
  let p := p.cancel id
  let generation := p.lastGeneration + 1
  {p with
    lastGeneration := generation
    pending := p.pending.insert id generation
    timers := p.timers.insert generation ⟨id, due⟩}

/-! ### Registration -/

/-- The scopes of a live context; none of an unknown one. -/
def scopesOf (p : Presence Hook) (id : ContextId) : ExtTreeSet Scope :=
  (p.contexts[id]?.map (·.scopes)).getD ∅

/-- Makes a context live, in place of one of the same id. Its cleanup is taken
back; scopes that only the replaced context had are left. -/
def register (p : Presence Hook) (c : Context Hook) : Presence Hook :=
  let p := p.cancel c.id
  let before := p.scopesOf c.id
  let generation := p.lastGeneration + 1
  let p := {p with
    sessions := p.sessions.insert c.id c.session
    lastGeneration := generation
    registrations := p.registrations.insert c.id generation
    contexts := p.contexts.insert c.id c}
  p.realign c.id before c.scopes

/-- Removes a context and all that is bound to it; nothing for an unknown id. -/
def unregister (p : Presence Hook) (id : ContextId) : Presence Hook :=
  if p.contexts.contains id then
    let (emptied, scopes) := p.scopes.removeAll id
    let p := emptied.foldl reclaim {p with scopes}
    cancel {p with
      contexts := p.contexts.erase id
      clients := p.clients.erase id
      sessions := p.sessions.erase id
      registrations := p.registrations.erase id} id
  else p

/-- Changes a live context and brings its membership in line; `none` for an
unknown id. -/
def change {α : Type} (p : Presence Hook) (id : ContextId)
    (f : Context Hook → α × Context Hook) : Option α × Presence Hook :=
  match p.contexts[id]? with
  | some c =>
    let (answer, changed) := f c
    (some answer,
      realign {p with contexts := p.contexts.insert id changed} id c.scopes
        changed.scopes)
  | none => (none, p)

def edit (p : Presence Hook) (id : ContextId) (edits : List Edit) :
    Option (List EditAnswer) × Presence Hook :=
  p.change id (Edit.applyAll edits)

/-- Moves a context to a route; answers whether the id is known. -/
def navigate (p : Presence Hook) (id : ContextId) (route : String) : Bool × Presence Hook :=
  let (answer, p) := p.change id fun c => ((), {c with route})
  (answer.isSome, p)

/-- Adds a teardown hook to a context; answers whether the id is known. -/
def onTeardown (p : Presence Hook) (id : ContextId) (hook : Hook) : Bool × Presence Hook :=
  let (answer, p) := p.change id fun c => ((), c.onTeardown hook)
  (answer.isSome, p)

/-- Joins a custom scope; answers whether it is new to the context. -/
def joinCustom (p : Presence Hook) (id : ContextId) (scope : Scope) : Bool × Presence Hook :=
  let (answer, p) := p.change id (·.joinCustom scope)
  (answer.getD false, p)

/-- Leaves a custom scope; answers whether the context had joined it. -/
def leaveCustom (p : Presence Hook) (id : ContextId) (scope : Scope) : Bool × Presence Hook :=
  let (answer, p) := p.change id (·.leaveCustom scope)
  (answer.getD false, p)

/-! ### Firing -/

/-- The first half of a firing: takes the pending entry if its generation is the
timer's, and looks up the context. -/
def beginFiring (p : Presence Hook) (id : ContextId) (generation : Nat) :
    Option (Firing Hook) × Presence Hook :=
  if p.pending[id]? = some generation then
    (p.contexts[id]?.map fun context => ⟨context, p.registrations[id]?⟩, p.cancel id)
  else (none, p)

/-- The second half, after the hooks. -/
def finishFiring (p : Presence Hook) (id : ContextId) (firing : Firing Hook) : Presence Hook :=
  if p.registrations[id]? = firing.registration ∧ ¬ p.isPending id then p.unregister id else p

/-! ### Clients and global state -/

def addClient (p : Presence Hook) (c : Client) : Presence Hook :=
  {p with clients := p.clients.insert c.id c}

def dropClient (p : Presence Hook) (id : ContextId) : Presence Hook :=
  {p with clients := p.clients.erase id}

def setGlobal (p : Presence Hook) (key : String) (value : Json) : Presence Hook :=
  {p with globals := p.globals.insert key value}

/-! ### Queries -/

def ids (p : Presence Hook) : List ContextId := p.contexts.keys

/-- The live contexts of a session, in order. -/
def inSession (p : Presence Hook) (session : SessionId) : List ContextId :=
  (p.sessions.toList.filter fun (_, s) => s == session).map Prod.fst

def profiles (p : Presence Hook) : List ContextProfile :=
  p.contexts.toList.map fun (_, c) => c.profile

def allClients (p : Presence Hook) : List Client := p.clients.toList.map Prod.snd

/-- The ids with a cleanup pending, in order. -/
def pendingIds (p : Presence Hook) : List ContextId := p.pending.keys

end Presence
end SharedViews

import SharedViews.Render.Flights

/-! Calls for renders, side by side.

A call asks for one render. A private one — for the tab scope, of a first load,
or for a context that keeps out of the cache — runs its own view and returns what
that gives. Any other claims its scope: a hit returns at once, a leader runs its
view and ends its flight with the result, and a waiter stays until the flight it
joined has ended. If the flight brought a view, the waiter returns it; if it was
lost, because its view failed or its call was cancelled, the waiter claims again.

The traffic is the flights, every call with how far it has come, and how each
ended flight ended. Between two events nothing happens, so any interleaving of
calls is a list of events and `run` follows it. An event that does not apply to
the call it names changes nothing. -/
namespace SharedViews
open Std

/-- What a call asks for. -/
structure Request where
  scope : Scope
  kind : RenderKind
  /-- Whether the context takes part in the caching of updates. -/
  caching : Bool := true
  deriving DecidableEq, Inhabited, Repr

/-- Whether the call may share its view with others. -/
def Request.isShared (r : Request) : Bool :=
  r.scope.isShared && r.kind == .update && r.caching

/-- How far a call has come. -/
inductive Phase (ε : Type)
  /-- Runs its view for itself alone. -/
  | viewing
  /-- Runs its view as the leader of a flight. -/
  | leading (flight : Nat)
  | waiting (flight : Nat)
  | returned (result : Except ε String)
  | cancelled
  deriving Inhabited

structure Call (ε : Type) where
  request : Request
  phase : Phase ε
  deriving Inhabited

structure Traffic (ε : Type) where
  flights : Flights
  calls : ExtTreeMap Nat (Call ε)
  /-- How flights have ended: with a view, or lost. -/
  landed : ExtTreeMap Nat (Option String)
  deriving Inhabited

/-- What may happen next. Durations are in seconds, and counted where the event
makes a call return. -/
inductive Event (ε : Type)
  | arrive (call : Nat) (request : Request) (seconds : Float)
  | viewEnds (call : Nat) (outcome : Except ε String) (seconds : Float)
  /-- A waiter whose flight has landed goes on. -/
  | resume (call : Nat) (seconds : Float)
  | cancel (call : Nat)
  | invalidate (scope : Scope)
  | clear
  | resetDurations

namespace Traffic
variable {ε : Type}

def empty : Traffic ε := ⟨.empty, ∅, ∅⟩

def phase? (t : Traffic ε) (call : Nat) : Option (Phase ε) := t.calls[call]?.map (·.phase)

/-- What a call has returned. -/
def result? (t : Traffic ε) (call : Nat) : Option (Except ε String) :=
  match t.phase? call with
  | some (.returned result) => some result
  | _ => none

def setPhase (t : Traffic ε) (call : Nat) (request : Request) (phase : Phase ε) : Traffic ε :=
  {t with calls := t.calls.insert call ⟨request, phase⟩}

def returns (t : Traffic ε) (call : Nat) (request : Request) (result : Except ε String)
    (seconds : Float) : Traffic ε :=
  {t.setPhase call request (.returned result) with flights := t.flights.record seconds}

/-- A shared call claims its scope and acts on the answer. -/
def claims (t : Traffic ε) (call : Nat) (request : Request) (seconds : Float) : Traffic ε :=
  let (grant, flights) := t.flights.claim request.scope
  let t := {t with flights}
  match grant with
  | .hit html => t.returns call request (.ok html) seconds
  | .wait flight => t.setPhase call request (.waiting flight)
  | .lead flight => t.setPhase call request (.leading flight)

/-- A flight ends, with a view or lost. The slot is freed, and the view stored, before the
waiters are told; that the two are one step here shows nowhere. Whoever claims in between looks
at the cache and the slot alone, and finds them as they stay; a waiter that has not been told
yet is one that has not gone on. -/
def lands (t : Traffic ε) (scope : Scope) (flight : Nat) (html : Option String) : Traffic ε :=
  {t with
    flights := match html with
      | some html => t.flights.deliver scope flight html
      | none => t.flights.abandon scope flight
    landed := t.landed.insert flight html}

def step (t : Traffic ε) : Event ε → Traffic ε
  | .arrive call request seconds =>
    if t.calls.contains call then t
    else if request.isShared then t.claims call request seconds
    else t.setPhase call request .viewing
  | .viewEnds call outcome seconds =>
    match t.calls[call]? with
    | some ⟨request, .viewing⟩ => t.returns call request outcome seconds
    | some ⟨request, .leading flight⟩ =>
      (t.lands request.scope flight outcome.toOption).returns call request outcome seconds
    | _ => t
  | .resume call seconds =>
    match t.calls[call]? with
    | some ⟨request, .waiting flight⟩ =>
      match t.landed[flight]? with
      | some (some html) => t.returns call request (.ok html) seconds
      | some none => t.claims call request seconds
      | none => t
    | _ => t
  | .cancel call =>
    match t.calls[call]? with
    | some ⟨request, .viewing⟩ => t.setPhase call request .cancelled
    | some ⟨request, .waiting _⟩ => t.setPhase call request .cancelled
    | some ⟨request, .leading flight⟩ =>
      (t.lands request.scope flight none).setPhase call request .cancelled
    | _ => t
  | .invalidate scope => {t with flights := t.flights.invalidate scope}
  | .clear => {t with flights := t.flights.clear}
  | .resetDurations => {t with flights := t.flights.resetDurations}

def run (t : Traffic ε) : List (Event ε) → Traffic ε
  | [] => t
  | e :: rest => run (t.step e) rest

theorem run_append (t : Traffic ε) (a b : List (Event ε)) :
    t.run (a ++ b) = (t.run a).run b := by
  induction a generalizing t with
  | nil => rfl
  | cons e rest ih => exact ih _

/-- Whether a waiting call can go on. -/
def canResume (t : Traffic ε) (call : Nat) : Bool :=
  match t.phase? call with
  | some (.waiting flight) => t.landed.contains flight
  | _ => false

end Traffic
end SharedViews

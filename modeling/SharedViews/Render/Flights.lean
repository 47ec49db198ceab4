import SharedViews.View.Rendered
import SharedViews.View.Durations

/-! Flights: which renders run a view, and which share one.

At most one flight — one run of a view whose result is to be shared — owns a
scope's slot. A claim on a scope is answered from the cache if it holds the
scope's view; else it joins the flight in the slot, unless that flight went stale;
else it starts a flight of its own and takes the slot over. A flight goes stale
when its scope is invalidated: it may finish for those who already wait for it,
but its result is not stored and nobody joins it any more.

A flight is known by its number, and no number is given twice. A flight that lost
its slot to a successor therefore frees nothing and stores nothing when it
ends. -/
namespace SharedViews
open Std

/-- The flight in a scope's slot. -/
structure Flight where
  number : Nat
  stale : Bool := false
  deriving DecidableEq, Inhabited, Repr

/-- The answer to a claim. -/
inductive Grant
  | hit (html : String)
  | wait (flight : Nat)
  | lead (flight : Nat)
  deriving DecidableEq, Inhabited, Repr

structure Flights where
  cache : RenderedViews
  slots : ExtTreeMap Scope Flight
  /-- The number of the latest flight. It has no largest value: where a word of 64 bits counts
  flights, no process lives to see it wrap. -/
  lastFlight : Nat
  durations : Durations
  deriving Inhabited

namespace Flights

def empty : Flights := ⟨.empty, ∅, 0, .empty⟩

/-- The flight that a claim on the scope may join. -/
def joinable (fs : Flights) (scope : Scope) : Option Flight :=
  fs.slots[scope]?.filter fun flight => !flight.stale

/-- A new flight takes the scope's slot over. -/
def start (fs : Flights) (scope : Scope) : Flights :=
  let number := fs.lastFlight + 1
  {fs with
    cache := fs.cache.mark scope true
    slots := fs.slots.insert scope ⟨number, false⟩
    lastFlight := number}

def claim (fs : Flights) (scope : Scope) : Grant × Flights :=
  match fs.cache.get? scope .update, fs.joinable scope with
  | some html, _ => (.hit html, fs)
  | none, some flight => (.wait flight.number, fs)
  | none, none => (.lead (fs.lastFlight + 1), fs.start scope)

/-- Whether the flight still has its scope's slot. -/
def owns (fs : Flights) (scope : Scope) (flight : Nat) : Bool :=
  fs.slots[scope]?.any fun f => f.number == flight

/-- Frees the slot and takes the mark off the scope. -/
def free (fs : Flights) (scope : Scope) : Flights :=
  {fs with cache := fs.cache.mark scope false, slots := fs.slots.erase scope}

/-- A flight ends without a view: it gives up its slot if it still has one. -/
def abandon (fs : Flights) (scope : Scope) (flight : Nat) : Flights :=
  if fs.owns scope flight then fs.free scope else fs

/-- A flight ends with a view, which is stored if the flight has its slot and
never went stale. -/
def deliver (fs : Flights) (scope : Scope) (flight : Nat) (html : String) : Flights :=
  let fresh := (fs.joinable scope).any fun f => f.number == flight
  let freed := fs.abandon scope flight
  if fresh then {freed with cache := freed.cache.set scope html .update} else freed

/-- Drops what the scope holds; a flight under way for it goes stale. -/
def invalidate (fs : Flights) (scope : Scope) : Flights :=
  {fs with
    cache := fs.cache.invalidate scope
    slots := fs.slots.modify scope fun flight => {flight with stale := true}}

/-- Drops every view; every flight under way goes stale. -/
def clear (fs : Flights) : Flights :=
  {fs with
    cache := fs.cache.clear
    slots := fs.slots.map fun _ flight => {flight with stale := true}}

/-- A render has come to its end. -/
def record (fs : Flights) (seconds : Float) : Flights :=
  {fs with durations := fs.durations.record seconds}

def resetDurations (fs : Flights) : Flights := {fs with durations := .empty}

end Flights
end SharedViews

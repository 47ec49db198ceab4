import SharedViews.Engine.Effect

/-! The engine in time.

A timeline runs an engine on a clock of its own. Renders are tasks: a view may
sleep, then issues operations, then gives html or fails. Whatever can happen
without time passing is a move — a waiter whose flight has landed goes on, a view
that has slept enough ends, a due timer fires — and `next?` chooses among the
moves of this instant: waiters first, then views, then timers, each in the order
of their numbers. Only when there is none does the clock go on, straight to the
next view or timer that is due.

Timers may set timers, so nothing in a timeline bounds the number of moves. `drive`
therefore takes a limit, which a timeline reaches only if its hooks keep setting
timers that are due at once. -/
namespace SharedViews
open Std

/-- A view as a task runs it. -/
structure View where
  /-- How long it sleeps in milliseconds, if it sleeps at all. -/
  delay : Option Nat := none
  operations : List Operation := []
  outcome : Except ViewError String
  /-- Whether its start is recorded. -/
  announced : Bool := true

/-- What a task renders for. -/
inductive Purpose
  | firstLoad (context : LiveContext)
  | update (id : ContextId)
  /-- A render for a context that need not be live. -/
  | direct (kind : RenderKind) (context : LiveContext)

structure Task where
  /-- Empty for the render that everything else waits for. -/
  name : String
  purpose : Purpose
  scope : Scope
  view : View
  startedAt : Nat

/-- How a task fails. -/
inductive TaskError
  | engine (cause : RenderError)
  /-- The view's own error, as it is. -/
  | view (cause : ViewError)
  deriving DecidableEq, Inhabited, Repr

abbrev TaskResult := Except TaskError String

/-- What is recorded of a run. -/
inductive Happening
  | viewStarted
  | ended (result : TaskResult)
  | hookRan (hook route : String)

/-- A happening, when it was and whom it concerns. -/
structure Entry where
  time : Nat
  who : String
  what : Happening

structure Timeline where
  engine : Engine
  /-- The tasks under way, by the number of their call. -/
  tasks : ExtTreeMap Nat Task
  /-- When the sleeping views wake. -/
  sleeping : ExtTreeMap Nat Nat
  /-- The latest call under each task name. -/
  named : ExtTreeMap String Nat
  /-- How calls have ended. -/
  results : ExtTreeMap Nat TaskResult
  nextCall : Nat
  /-- The latest entry first. -/
  record : List Entry

/-- What may happen at one instant. -/
inductive Move
  | resume (call : Nat)
  | wake (call : Nat)
  | fire (generation : Nat) (timer : Timer)
  deriving DecidableEq, Inhabited, Repr

namespace Timeline

def start (engine : Engine) : Timeline :=
  ⟨engine, ∅, ∅, ∅, ∅, 0, []⟩

def now (t : Timeline) : Nat := t.engine.now

def note (t : Timeline) (who : String) (what : Happening) : Timeline :=
  {t with record := ⟨t.now, who, what⟩ :: t.record}

/-- How long a task has been under way, in seconds. -/
def seconds (t : Timeline) (task : Task) : Float := (t.now - task.startedAt).toFloat / 1000.0

/-! ### Tasks -/

/-- A task's result, from what its call has returned. -/
def conclude (t : Timeline) (task : Task) (result : Except ViewError String) :
    TaskResult × Timeline :=
  match task.purpose with
  | .firstLoad c =>
    let (result, engine) := t.engine.finishFirstLoad c result
    (result.mapError .engine, {t with engine})
  | .update _ => ((Engine.finishUpdate result).mapError .engine, t)
  | .direct _ _ => (result.mapError .view, t)

/-- A task has ended; whoever is named for it is told. -/
def finish (t : Timeline) (call : Nat) (task : Task) (result : TaskResult) : Timeline :=
  let t := {t with tasks := t.tasks.erase call, results := t.results.insert call result}
  if task.name.isEmpty then t else t.note task.name (.ended result)

/-- Ends the task if its call has returned. -/
def settle (t : Timeline) (call : Nat) : Timeline :=
  match t.tasks[call]?, t.engine.traffic.result? call with
  | some task, some result =>
    let (result, t) := t.conclude task result
    t.finish call task result
  | _, _ => t

/-- The view of a call has slept enough: its operations, then its end. -/
def endView (t : Timeline) (call : Nat) : Timeline :=
  match t.tasks[call]? with
  | some task =>
    let engine := t.engine.applyAll task.view.operations
    let engine := engine.onTraffic (.viewEnds call task.view.outcome (t.seconds task))
    settle {t with engine, sleeping := t.sleeping.erase call} call
  | none => t

/-- Follows a call after an event that concerns it: its view starts, or it has
returned, or it waits. -/
def proceed (t : Timeline) (call : Nat) : Timeline :=
  match t.tasks[call]?, t.engine.traffic.phase? call with
  | some task, some .viewing | some task, some (.leading _) =>
    let t := if task.view.announced then t.note task.name .viewStarted else t
    match task.view.delay with
    | some delay => {t with sleeping := t.sleeping.insert call (t.now + delay)}
    | none => t.endView call
  | _, _ => t.settle call

/-- Starts a task and runs its first part. -/
def launch (t : Timeline) (task : Task) : Nat × Timeline :=
  let call := t.nextCall
  let t := {t with
    nextCall := call + 1
    tasks := t.tasks.insert call task
    named := if task.name.isEmpty then t.named else t.named.insert task.name call}
  match task.purpose with
  | .firstLoad c => (call, proceed {t with engine := t.engine.beginFirstLoad call task.scope c} call)
  | .update id =>
    match t.engine.beginUpdate call task.scope id 0.0 with
    | some engine => (call, proceed {t with engine} call)
    | none => (call, t.finish call task (.error (.engine (.unknownContext id))))
  | .direct kind c =>
    let event := Event.arrive call (Engine.requestOf task.scope kind c) 0.0
    (call, proceed {t with engine := t.engine.onTraffic event} call)

/-- Drops a task where it waits; answers whether it was under way. -/
def abort (t : Timeline) (name : String) : Bool × Timeline :=
  match t.named[name]?.filter t.tasks.contains with
  | some call =>
    (true, {t with
      engine := t.engine.onTraffic (.cancel call)
      tasks := t.tasks.erase call
      sleeping := t.sleeping.erase call})
  | none => (false, t)

/-! ### Moves -/

/-- The next move of this instant. -/
def next? (t : Timeline) : Option Move :=
  let resumable := t.tasks.keys.find? t.engine.traffic.canResume
  let awake := t.sleeping.toList.find? fun (_, due) => due ≤ t.now
  let fired := t.engine.presence.timers.toList.find? fun (_, timer) => timer.due ≤ t.now
  (resumable.map .resume).or <| (awake.map fun (call, _) => .wake call).or <|
    fired.map fun (generation, timer) => .fire generation timer

def make (t : Timeline) : Move → Timeline
  | .resume call =>
    match t.tasks[call]? with
    | some task =>
      proceed {t with engine := t.engine.onTraffic (.resume call (t.seconds task))} call
    | none => t
  | .wake call => t.endView call
  | .fire generation timer =>
    let (runs, engine) := t.engine.fire timer.id generation
    runs.foldl (fun t run => t.note run.given.id (.hookRan run.hook run.given.route)) {t with engine}

/-- When the clock would stop next. -/
def nextDue? (t : Timeline) : Option Nat :=
  let dues := t.sleeping.toList.map Prod.snd ++
    t.engine.presence.timers.toList.map fun (_, timer) => timer.due
  dues.min?

def setClock (t : Timeline) (now : Nat) : Timeline := {t with engine := {t.engine with now}}

/-- Makes the moves of this instant and of the later ones that `goOn` allows the
clock to reach, `limit` of them at most. -/
def drive : (limit : Nat) → (goOn : Timeline → Nat → Bool) → Timeline → Timeline
  | 0, _, t => t
  | limit + 1, goOn, t =>
    match t.next? with
    | some move => drive limit goOn (t.make move)
    | none =>
      match t.nextDue?.filter (goOn t) with
      | some due => drive limit goOn (t.setClock due)
      | none => t

/-- Everything that can happen now. -/
def rest (limit : Nat) (t : Timeline) : Timeline := t.drive limit fun _ _ => false

/-- Lets time pass. -/
def advance (limit : Nat) (t : Timeline) (ms : Nat) : Timeline :=
  let target := t.now + ms
  (t.drive limit fun _ due => due ≤ target).setClock target

/-- Runs a task to its end, with all that happens meanwhile. -/
def await (limit : Nat) (t : Timeline) (task : Task) : Option TaskResult × Timeline :=
  let (call, t) := t.launch task
  let t := t.drive limit fun t _ => !t.results.contains call
  (t.results[call]?, t)

end Timeline
end SharedViews

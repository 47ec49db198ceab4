import SharedViews.Proofs.Engine.Deeds
import SharedViews.Proofs.Moments
import SharedViews.Timeline

/-! What happens around an engine, act by act.

An act is the least that happens at once: an operation, one half of a firing, one event
of the renders, a look at the shell, or a change of the time. Whatever goes on around an
engine is a list of acts, in any order: a firing is its two halves with the operations of
the hooks in between (`follows_fire`), a first load is a registration, an arrival, the end
of a view and a look at the shell, and everything that a timeline has its engine do is a
list of acts as well (`Timeline.Played.follows`). So what is so after every list of acts is
so of every engine that is ever reached. -/
namespace SharedViews
open Std

/-- The least that happens to an engine at once. -/
inductive Act
  | operation (op : Operation)
  /-- A timer calls. -/
  | beginFiring (id : ContextId) (generation : Nat)
  /-- The hooks of a firing have run. -/
  | finishFiring (id : ContextId) (firing : Firing TeardownHook)
  | render (event : Event ViewError)
  | recallShell
  | clock (now : Nat)

namespace Engine
variable {e f g : Engine}

def step (e : Engine) : Act → Engine
  | .operation op => (e.apply op).2
  | .beginFiring id generation => e.withPresence (e.presence.beginFiring id generation).2
  | .finishFiring id firing => e.withPresence (e.presence.finishFiring id firing)
  | .render event => e.onTraffic event
  | .recallShell => e.recallShell.2
  | .clock now => {e with now}

/-- Acts from first to last. -/
def after (e : Engine) (acts : List Act) : Engine := acts.foldl step e

theorem after_append (e : Engine) (a b : List Act) : e.after (a ++ b) = (e.after a).after b :=
  List.foldl_append

theorem after_concat (e : Engine) (acts : List Act) (a : Act) :
    e.after (acts ++ [a]) = (e.after acts).step a := e.after_append acts [a]

/-- What no act undoes lasts. -/
theorem after_invariant {P : Engine → Prop} (hstep : ∀ e a, P e → P (e.step a)) (he : P e)
    (acts : List Act) : P (e.after acts) := by
  induction acts generalizing e with
  | nil => exact he
  | cons a rest ih => exact ih (hstep e a he)

/-- Acts lead from the one engine to the other. -/
def Follows (e f : Engine) : Prop := ∃ acts, e.after acts = f

theorem Follows.refl (e : Engine) : Follows e e := ⟨[], rfl⟩

theorem Follows.trans (h : Follows e f) (h' : Follows f g) : Follows e g := by
  obtain ⟨a, rfl⟩ := h
  obtain ⟨b, rfl⟩ := h'
  exact ⟨a ++ b, e.after_append a b⟩

theorem follows_step (e : Engine) (a : Act) : Follows e (e.step a) := ⟨[a], rfl⟩

/-! ### Operations and firings -/

theorem after_operations (e : Engine) (ops : List Operation) :
    e.after (ops.map .operation) = e.applyAll ops := by
  induction ops generalizing e with
  | nil => rfl
  | cons op rest ih => exact ih (e.apply op).2

theorem follows_applyAll (e : Engine) (ops : List Operation) : Follows e (e.applyAll ops) :=
  ⟨ops.map .operation, e.after_operations ops⟩

/-- A firing as acts: its two halves, and what the hooks do in between. -/
def firingActs (e : Engine) (id : ContextId) (generation : Nat) : List Act :=
  match (e.presence.beginFiring id generation).1 with
  | none => [.beginFiring id generation]
  | some firing => .beginFiring id generation ::
      ((firing.context.hooks.flatMap TeardownHook.operations).map .operation ++
        [.finishFiring id firing])

theorem fire_eq_after (e : Engine) (id : ContextId) (generation : Nat) :
    (e.fire id generation).2 = e.after (e.firingActs id generation) := by
  have hbegin : e.step (.beginFiring id generation) =
      e.withPresence (e.presence.beginFiring id generation).2 := rfl
  unfold fire firingActs
  generalize e.presence.beginFiring id generation = begun at hbegin ⊢
  obtain ⟨found, p⟩ := begun
  cases found with
  | none => exact hbegin.symm
  | some firing =>
    show _ = (e.step (.beginFiring id generation)).after _
    rw [hbegin, after_concat, after_operations, ← runHooks_eq]
    rfl

theorem follows_fire (e : Engine) (id : ContextId) (generation : Nat) :
    Follows e (e.fire id generation).2 := ⟨_, (e.fire_eq_after id generation).symm⟩

/-! ### First loads and updates -/

theorem beginFirstLoad_eq (e : Engine) (call : Nat) (scope : Scope) (c : LiveContext) :
    e.beginFirstLoad call scope c = e.after [.operation (.register c),
      .render (.arrive call (requestOf scope .initial c) 0.0)] := rfl

/-- A first load with a fragment looks at the shell, however long it has waited. -/
theorem finishLoading_fragment {documents : Assembler}
    (h : documents.shell = e.documents.shell) (c : LiveContext) (content : String) :
    (e.finishLoading c (.fragment content documents)).2 = e.step .recallShell := by
  show (e.shellText documents.shell).2 = (e.shellText e.documents.shell).2
  rw [h]

/-- The end of a first load looks at the shell, if it needs it. -/
theorem finishFirstLoad_snd (e : Engine) (c : LiveContext) (result : Except ViewError String) :
    (e.finishFirstLoad c result).2 = e ∨
      (e.finishFirstLoad c result).2 = e.step .recallShell := by
  unfold finishFirstLoad loading
  cases result with
  | error cause => exact .inl rfl
  | ok content =>
    dsimp only
    split
    · exact .inl rfl
    · exact .inr (finishLoading_fragment rfl c content)

theorem follows_finishFirstLoad (e : Engine) (c : LiveContext) (result : Except ViewError String) :
    Follows e (e.finishFirstLoad c result).2 := by
  rcases e.finishFirstLoad_snd c result with h | h
  · exact ⟨[], h.symm⟩
  · exact ⟨[.recallShell], h.symm⟩

theorem follows_beginUpdate {call : Nat} {scope : Scope} {id : ContextId} {seconds : Float}
    (h : e.beginUpdate call scope id seconds = some f) : Follows e f := by
  obtain ⟨c, -, rfl⟩ := Option.map_eq_some_iff.mp h
  exact e.follows_step (.render (.arrive call (requestOf scope .update c) seconds))

/-! ### Renders -/

end Engine

/-- What the operation does to renders. -/
def Operation.events : Operation → List (Event ViewError)
  | .writeSignal scope _ _ | .invalidate scope => [.invalidate scope]
  | .clearCache => [.clear]
  | .resetDurations => [.resetDurations]
  | .inspect method params => Engine.inspectionEvents method params
  | _ => []

def Act.events : Act → List (Event ViewError)
  | .operation op => op.events
  | .render event => [event]
  | _ => []

namespace Engine

theorem traffic_apply (e : Engine) (op : Operation) :
    (e.apply op).2.traffic = e.traffic.run op.events := by
  cases op with
  | inspect method params => exact congrArg traffic (e.call_snd method params)
  | _ => rfl

/-- Looking at the shell changes what is remembered of it, and nothing else. -/
theorem recallShell_eq (e : Engine) : ∃ shell, e.recallShell.2 = {e with shell} := by
  unfold recallShell shellText
  split
  · exact ⟨_, rfl⟩
  · exact ⟨_, rfl⟩
  · split
    · exact ⟨_, rfl⟩
    · exact ⟨_, rfl⟩

theorem traffic_step (e : Engine) (a : Act) :
    (e.step a).traffic = e.traffic.run a.events := by
  cases a with
  | operation op => exact e.traffic_apply op
  | recallShell =>
    obtain ⟨shell, h⟩ := e.recallShell_eq
    show e.recallShell.2.traffic = _
    rw [h]
    rfl
  | _ => rfl

/-- The renders of an engine are a run of the events of its acts. -/
theorem traffic_after (e : Engine) (acts : List Act) :
    (e.after acts).traffic = e.traffic.run (acts.flatMap Act.events) := by
  induction acts generalizing e with
  | nil => rfl
  | cons a rest ih =>
    show ((e.step a).after rest).traffic = _
    rw [ih, traffic_step, List.flatMap_cons, Traffic.run_append]

end Engine

/-! ### Timelines -/

namespace Timeline
variable {e : Engine} {t : Timeline}

theorem follows_conclude (h : e.Follows t.engine) (task : Task)
    (result : Except ViewError String) : e.Follows (t.conclude task result).2.engine := by
  unfold conclude
  split
  · exact h.trans (t.engine.follows_finishFirstLoad _ _)
  · exact h
  · exact h

theorem follows_finish (h : e.Follows t.engine) (call : Nat) (task : Task) (result : TaskResult) :
    e.Follows (t.finish call task result).engine := by
  unfold finish
  dsimp only
  split <;> exact h

theorem follows_settle (h : e.Follows t.engine) (call : Nat) :
    e.Follows (t.settle call).engine := by
  unfold settle
  split
  · exact follows_finish (follows_conclude h _ _) _ _ _
  · exact h

theorem follows_endView (h : e.Follows t.engine) (call : Nat) :
    e.Follows (t.endView call).engine := by
  unfold endView
  split
  next task _ =>
    have hran := h.trans (t.engine.follows_applyAll task.view.operations)
    refine follows_settle ?_ call
    exact hran.trans (Engine.follows_step _
      (.render (.viewEnds call task.view.outcome (t.seconds task))))
  next => exact h

theorem follows_announce (h : e.Follows t.engine) (task : Task) :
    e.Follows (if task.view.announced then t.note task.name .viewStarted else t).engine := by
  split <;> exact h

theorem follows_proceed (h : e.Follows t.engine) (call : Nat) :
    e.Follows (t.proceed call).engine := by
  unfold proceed
  split
  · dsimp only
    split
    · exact follows_announce h _
    · exact follows_endView (follows_announce h _) call
  · dsimp only
    split
    · exact follows_announce h _
    · exact follows_endView (follows_announce h _) call
  · exact follows_settle h call

theorem follows_launch (h : e.Follows t.engine) (task : Task) :
    e.Follows (t.launch task).2.engine := by
  unfold launch
  dsimp only
  split
  next c _ =>
    refine follows_proceed ?_ t.nextCall
    exact h.trans ⟨_, (t.engine.beginFirstLoad_eq t.nextCall task.scope c).symm⟩
  next id _ =>
    split
    next engine hbegun =>
      refine follows_proceed ?_ t.nextCall
      exact h.trans (Engine.follows_beginUpdate hbegun)
    next =>
      refine follows_finish ?_ _ _ _
      exact h
  next kind c _ =>
    refine follows_proceed ?_ t.nextCall
    exact h.trans (t.engine.follows_step
      (.render (.arrive t.nextCall (Engine.requestOf task.scope kind c) 0.0)))

theorem follows_abort (h : e.Follows t.engine) (name : String) :
    e.Follows (t.abort name).2.engine := by
  unfold abort
  split
  next call _ => exact h.trans (t.engine.follows_step (.render (.cancel call)))
  next => exact h

theorem follows_make (h : e.Follows t.engine) (move : Move) :
    e.Follows (t.make move).engine := by
  cases move with
  | resume call =>
    unfold make
    dsimp only
    split
    next task _ =>
      refine follows_proceed ?_ call
      exact h.trans (t.engine.follows_step (.render (.resume call (t.seconds task))))
    next => exact h
  | wake call => exact follows_endView h call
  | fire generation timer =>
    have hfired := h.trans (t.engine.follows_fire timer.id generation)
    unfold make
    dsimp only
    generalize t.engine.fire timer.id generation = fired at hfired ⊢
    obtain ⟨runs, engine⟩ := fired
    have hstarted : e.Follows ({t with engine} : Timeline).engine := hfired
    clear hfired
    dsimp only
    generalize ({t with engine} : Timeline) = begun at hstarted ⊢
    induction runs generalizing begun with
    | nil => exact hstarted
    | cons run rest ih => exact ih (begun.note _ _) hstarted

theorem follows_drive (h : e.Follows t.engine) (limit : Nat) (goOn : Timeline → Nat → Bool) :
    e.Follows (t.drive limit goOn).engine := by
  induction limit generalizing t with
  | zero => exact h
  | succ limit ih =>
    unfold drive
    split
    · exact ih (follows_make h _)
    · split
      next due _ => exact ih (t := t.setClock due) (h.trans (t.engine.follows_step (.clock due)))
      next => exact h

/-- What comes of a timeline that begins with the engine. -/
inductive Played (e : Engine) : Timeline → Prop
  | start : Played e (start e)
  | operation {t : Timeline} (op : Operation) :
      Played e t → Played e {t with engine := (t.engine.apply op).2}
  | launch {t : Timeline} (task : Task) : Played e t → Played e (t.launch task).2
  | abort {t : Timeline} (name : String) : Played e t → Played e (t.abort name).2
  | drive {t : Timeline} (limit : Nat) (goOn : Timeline → Nat → Bool) :
      Played e t → Played e (t.drive limit goOn)
  | setClock {t : Timeline} (now : Nat) : Played e t → Played e (t.setClock now)

/-- Whatever a timeline does comes to a list of acts of its engine. -/
theorem Played.follows (h : Played e t) : e.Follows t.engine := by
  induction h with
  | start => exact .refl e
  | @operation t op _ ih => exact ih.trans (t.engine.follows_step (.operation op))
  | launch task _ ih => exact follows_launch ih task
  | abort name _ ih => exact follows_abort ih name
  | drive limit goOn _ ih => exact follows_drive ih limit goOn
  | @setClock t now _ ih => exact ih.trans (t.engine.follows_step (.clock now))

end Timeline
end SharedViews

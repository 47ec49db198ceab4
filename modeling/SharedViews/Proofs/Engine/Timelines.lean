import SharedViews.Proofs.Engine.Acts
import SharedViews.Proofs.Engine.Pace
import SharedViews.Timeline

/-! Timelines keep the pace.

A timeline lets its clock go on only when nothing is due, and then no further than to
what falls due next. So whatever its tasks do, its engine makes a paced run, as long as
no hook that they bring in calls back (`Calm.launch`, `Calm.drive`). -/
namespace SharedViews
open Std

/-- Whatever the task registers has quiet hooks. -/
structure Task.Quiet (task : Task) : Prop where
  operations : ∀ op ∈ task.view.operations, op.Quiet
  context : ∀ c, task.purpose = .firstLoad c → ∀ hook ∈ c.hooks, hook.Quiet

namespace Engine

theorem clocked_recallShell (e : Engine) : e.recallShell.2.clocked = e.clocked := by
  obtain ⟨shell, h⟩ := e.recallShell_eq
  rw [h]
  rfl

theorem clocked_finishFirstLoad (e : Engine) (c : LiveContext) (result : Except ViewError String) :
    (e.finishFirstLoad c result).2.clocked = e.clocked := by
  rcases e.finishFirstLoad_snd c result with h | h
  · rw [h]
  · rw [h]
    exact e.clocked_recallShell

end Engine

namespace Timeline

/-- The engine of the timeline is calm, and so are the tasks under way. -/
structure Calm (e : Engine) (t : Timeline) : Prop where
  engine : e.Calm t.engine
  tasks : ∀ (call : Nat) (task : Task), t.tasks[call]? = some task → task.Quiet

variable {e : Engine} {t t' : Timeline} {task : Task} {call : Nat}

theorem Calm.start (e : Engine) (h : e.presence.Hooked TeardownHook.Quiet) :
    Calm e (start e) where
  engine := ⟨⟨[], .rest⟩, h⟩
  tasks call task hat := by
    have hnone : (∅ : ExtTreeMap Nat Task)[call]? = none := ExtTreeMap.getElem?_empty
    rw [show (Timeline.start e).tasks[call]? = none from hnone] at hat
    cases hat

theorem Calm.aside (h : Calm e t) (engine : t'.engine.clocked = t.engine.clocked)
    (tasks : ∀ (call : Nat) (task : Task), t'.tasks[call]? = some task →
      t.tasks[call]? = some task) : Calm e t' :=
  ⟨h.engine.aside engine, fun call task hat => h.tasks call task (tasks call task hat)⟩

theorem of_erase {tasks : ExtTreeMap Nat Task} {x : Nat} (h : (tasks.erase x)[call]? = some task) :
    tasks[call]? = some task := by
  rw [ExtTreeMap.getElem?_erase] at h
  split at h
  · cases h
  · exact h

theorem Calm.note (h : Calm e t) (who : String) (what : Happening) : Calm e (t.note who what) :=
  h.aside rfl fun _ _ hat => hat

/-! ### Tasks -/

theorem Calm.conclude (h : Calm e t) (task : Task) (result : Except ViewError String) :
    Calm e (t.conclude task result).2 := by
  unfold Timeline.conclude
  split
  · exact h.aside (Engine.clocked_finishFirstLoad _ _ _) fun _ _ hat => hat
  · exact h
  · exact h

theorem Calm.finish (h : Calm e t) (call : Nat) (task : Task) (result : TaskResult) :
    Calm e (t.finish call task result) := by
  have hended : Calm e {t with
      tasks := t.tasks.erase call, results := t.results.insert call result} :=
    h.aside rfl fun _ _ hat => of_erase hat
  unfold Timeline.finish
  dsimp only
  split
  · exact hended
  · exact hended.note task.name (.ended result)

theorem Calm.settle (h : Calm e t) (call : Nat) : Calm e (t.settle call) := by
  unfold Timeline.settle
  split
  next task result _ _ => exact (h.conclude task result).finish call task _
  next => exact h

theorem Calm.endView (h : Calm e t) (call : Nat) : Calm e (t.endView call) := by
  unfold Timeline.endView
  split
  next task hat =>
    have hran := h.engine.applyAll (h.tasks call task hat).operations
    refine Calm.settle ?_ call
    exact ⟨hran.aside rfl, h.tasks⟩
  next => exact h

theorem Calm.announce (h : Calm e t) (task : Task) :
    Calm e (if task.view.announced then t.note task.name .viewStarted else t) := by
  split
  · exact h.note task.name .viewStarted
  · exact h

theorem Calm.proceed (h : Calm e t) (call : Nat) : Calm e (t.proceed call) := by
  unfold Timeline.proceed
  split
  next task _ _ =>
    dsimp only
    split
    · exact (h.announce task).aside rfl fun _ _ hat => hat
    · exact (h.announce task).endView call
  next task _ _ _ =>
    dsimp only
    split
    · exact (h.announce task).aside rfl fun _ _ hat => hat
    · exact (h.announce task).endView call
  next => exact h.settle call

theorem Calm.launch (h : Calm e t) (hquiet : task.Quiet) : Calm e (t.launch task).2 := by
  have hstarted : Calm e {t with
      nextCall := t.nextCall + 1
      tasks := t.tasks.insert t.nextCall task
      named := if task.name.isEmpty then t.named else t.named.insert task.name t.nextCall} := by
    refine ⟨h.engine, fun call other hat => ?_⟩
    rw [ExtTreeMap.getElem?_insert] at hat
    split at hat
    · obtain rfl := Option.some.inj hat
      exact hquiet
    · exact h.tasks call other hat
  unfold Timeline.launch
  dsimp only
  split
  next c hpurpose =>
    have hloaded := hstarted.engine.firstLoad (hquiet.context c hpurpose) t.nextCall task.scope
    refine Calm.proceed ?_ t.nextCall
    exact ⟨hloaded, hstarted.tasks⟩
  next id hpurpose =>
    split
    next engine hbegun =>
      have hsame : engine.clocked = t.engine.clocked := by
        obtain ⟨c, -, rfl⟩ := Option.map_eq_some_iff.mp hbegun
        rfl
      refine Calm.proceed ?_ t.nextCall
      exact hstarted.aside hsame fun _ _ hat => hat
    next => exact hstarted.finish _ _ _
  next kind c hpurpose =>
    refine Calm.proceed ?_ t.nextCall
    exact hstarted.aside rfl fun _ _ hat => hat

theorem Calm.abort (h : Calm e t) (name : String) : Calm e (t.abort name).2 := by
  unfold Timeline.abort
  split
  · exact h.aside rfl fun _ _ hat => of_erase hat
  · exact h

/-! ### Moves -/

/-- A timer that is to fire is due. -/
theorem due_of_next {g : Nat} {timer : Timer} (h : t.next? = some (.fire g timer)) :
    t.engine.clocked.due? g = some timer := by
  unfold next? at h
  rcases Option.or_eq_some_iff.mp h with hresume | ⟨-, h⟩
  · obtain ⟨_, _, heq⟩ := Option.map_eq_some_iff.mp hresume
    cases heq
  rcases Option.or_eq_some_iff.mp h with hwake | ⟨-, h⟩
  · obtain ⟨_, _, heq⟩ := Option.map_eq_some_iff.mp hwake
    cases heq
  obtain ⟨⟨k, other⟩, hfound, heq⟩ := Option.map_eq_some_iff.mp h
  cases heq
  have hmem := List.mem_of_find?_eq_some hfound
  have hdue := List.find?_some hfound
  exact Clocked.due?_eq_some_iff.mpr
    ⟨ExtTreeMap.mem_toList_iff_getElem?_eq_some.mp hmem, of_decide_eq_true hdue⟩

theorem Calm.make (h : Calm e t) {move : Move} (hnext : t.next? = some move) :
    Calm e (t.make move) := by
  cases move with
  | resume call =>
    unfold Timeline.make
    dsimp only
    split
    · refine Calm.proceed ?_ call
      exact h.aside rfl fun _ _ hat => hat
    · exact h
  | wake call => exact h.endView call
  | fire g timer =>
    have hfired : Calm e {t with engine := (t.engine.fire timer.id g).2} :=
      ⟨h.engine.fire (due_of_next hnext), h.tasks⟩
    unfold Timeline.make
    dsimp only
    generalize t.engine.fire timer.id g = fired at hfired ⊢
    obtain ⟨runs, engine⟩ := fired
    dsimp only at hfired ⊢
    generalize ({t with engine} : Timeline) = begun at hfired ⊢
    induction runs generalizing begun with
    | nil => exact hfired
    | cons run rest ih => exact ih _ (hfired.note _ _)

/-- The clock goes on when nothing is due, to what falls due next. -/
theorem Calm.setClock (h : Calm e t) (hnext : t.next? = none) {due : Nat}
    (hdue : t.nextDue? = some due) : Calm e (t.setClock due) := by
  have hnone : ∀ x ∈ t.sleeping.toList.map Prod.snd ++
      t.engine.presence.timers.toList.map (fun timer => timer.2.due), t.now < x := by
    unfold next? at hnext
    simp only [Option.or_eq_none_iff, Option.map_eq_none_iff, List.find?_eq_none] at hnext
    obtain ⟨-, hawake, hfired⟩ := hnext
    intro x hx
    rcases List.mem_append.mp hx with hx | hx
    · obtain ⟨⟨k, wakes⟩, hmem, rfl⟩ := List.mem_map.mp hx
      simpa using hawake _ hmem
    · obtain ⟨⟨k, timer⟩, hmem, rfl⟩ := List.mem_map.mp hx
      simpa using hfired _ hmem
  obtain ⟨hmem, hleast⟩ := List.min?_eq_some_iff.mp hdue
  refine ⟨h.engine.wait (Nat.le_of_lt (hnone due hmem)) fun g timer hg => ?_, h.tasks⟩
  refine hleast _ (List.mem_append_right _ (List.mem_map.mpr ⟨(g, timer), ?_, rfl⟩))
  exact ExtTreeMap.mem_toList_iff_getElem?_eq_some.mpr hg

theorem Calm.drive (h : Calm e t) (limit : Nat) (goOn : Timeline → Nat → Bool) :
    Calm e (t.drive limit goOn) := by
  induction limit generalizing t with
  | zero => exact h
  | succ limit ih =>
    unfold Timeline.drive
    split
    next move hnext => exact ih (h.make hnext)
    next hnext =>
      split
      next due hdue => exact ih (h.setClock hnext (Option.filter_eq_some_iff.mp hdue).1)
      next => exact h

end Timeline
end SharedViews

import SharedViews.Proofs.Engine.Teardown
import SharedViews.Proofs.Presence.Clocked

/-! The engine on its clock.

An operation comes to events on the clock, a timer that is due to its firing, if the
hooks it runs do nothing to presence, and time may pass until the next timer is due.
`Paced` says that an engine gets from one state to another in this way and keeps the
events; presence and clock are then what these events lead to (`Paced.clocked_eq`). -/
namespace SharedViews
open Std

/-- What the hook issues does nothing to presence. -/
def TeardownHook.Quiet (hook : TeardownHook) : Prop :=
  ∀ op ∈ hook.operations, ∀ e : Engine, e.deeds op = []

instance {Hook : Type} : (d : Deed Hook) → Decidable d.Plain
  | .schedule _ _ | .beginFiring _ _ | .finishFiring _ _ => isFalse id
  | .register _ | .unregister _ | .change _ _ | .navigate _ _ | .joinCustom _ _
  | .leaveCustom _ _ | .cancel _ | .addClient _ | .dropClient _ | .setGlobal _ _
  | .writeSignal _ _ _ | .removeSignal _ _ | .addAction _ _ _ | .removeAction _ _
  | .enroll _ _ | .withdraw _ _ => isTrue trivial

/-- The deed as an event at that time. Half of a firing is none. -/
def Deed.occasion {Hook : Type} (now : Nat) : Deed Hook → Occasion Hook
  | .schedule id due => .schedule id (due - now)
  | d => if plain : d.Plain then .deed d plain else .wait 0

namespace Clocked

theorem step_occasion {Hook : Type} {c : Clocked Hook} {d : Deed Hook} (hwhole : d.Whole)
    (hdue : ∀ id due, d = .schedule id due → c.now ≤ due) :
    c.step (d.occasion c.now) = {c with presence := c.presence.perform d} := by
  cases d with
  | schedule id due =>
    have hle := hdue id due rfl
    have heq : c.now + (due - c.now) = due := by omega
    show {c with presence := c.presence.schedule id (c.now + (due - c.now))} = _
    rw [heq]
    rfl
  | beginFiring id g => exact hwhole.elim
  | finishFiring id firing => exact hwhole.elim
  | _ => rfl

/-- Deeds of one instant, as events. -/
theorem foldl_occasions {Hook : Type} {deeds : List (Deed Hook)} {now : Nat}
    (hwhole : ∀ d ∈ deeds, d.Whole)
    (hdue : ∀ id due, .schedule id due ∈ deeds → now ≤ due) (p : Presence Hook) :
    (deeds.map (Deed.occasion now)).foldl step ⟨p, now⟩ = ⟨p.after deeds, now⟩ := by
  induction deeds generalizing p with
  | nil => rfl
  | cons d rest ih =>
    have hstep := step_occasion (c := ⟨p, now⟩) (hwhole d List.mem_cons_self)
      fun id due hd => hdue id due (hd ▸ List.mem_cons_self)
    rw [List.map_cons, List.foldl_cons, hstep]
    exact ih (fun x hx => hwhole x (List.mem_cons_of_mem d hx))
      (fun id due hmem => hdue id due (List.mem_cons_of_mem d hmem)) (p.perform d)

end Clocked

namespace Engine
variable {e f : Engine} {es : List (Occasion TeardownHook)} {g : Nat} {timer : Timer}
  {id : ContextId}

/-- Presence and the clock. -/
def clocked (e : Engine) : Clocked TeardownHook := ⟨e.presence, e.now⟩

/-- The operation as events on the clock. -/
def occasions (e : Engine) (op : Operation) : List (Occasion TeardownHook) :=
  (e.deeds op).map (Deed.occasion e.now)

/-! ### Operations -/

theorem now_apply (e : Engine) (op : Operation) : (e.apply op).2.now = e.now := by
  cases op with
  | inspect method params =>
    have hnow := congrArg now (e.call_snd method params)
    exact hnow
  | _ => rfl

/-- No schedule is for a time that is past. -/
theorem due_deeds (e : Engine) (op : Operation) (id : ContextId) (due : Nat)
    (h : .schedule id due ∈ e.deeds op) : e.now ≤ due := by
  cases op with
  | inspect method params =>
    have hmem : .schedule id due ∈ inspectionDeeds method params := h
    unfold inspectionDeeds at hmem
    split at hmem
    · simp at hmem
    · simp at hmem
  | schedule x delay =>
    obtain ⟨-, rfl⟩ : id = x ∧ due = e.now + delay.getD e.cleanupDelay := by simpa [deeds] using h
    exact Nat.le_add_right _ _
  | disconnect x =>
    obtain ⟨-, rfl⟩ : id = x ∧ due = e.now + e.cleanupDelay := by simpa [deeds] using h
    exact Nat.le_add_right _ _
  | _ => simp [deeds] at h

theorem clocked_apply (e : Engine) (op : Operation) :
    (e.apply op).2.clocked = (e.occasions op).foldl Clocked.step e.clocked := by
  have hrun := Clocked.foldl_occasions (e.whole_deeds op) (fun id due h => e.due_deeds op id due h)
    e.presence
  refine Eq.trans ?_ hrun.symm
  unfold clocked
  rw [presence_apply, now_apply]

theorem clocked_applyAll_of_quiet {ops : List Operation}
    (h : ∀ op ∈ ops, ∀ e : Engine, e.deeds op = []) (e : Engine) :
    (e.applyAll ops).clocked = e.clocked := by
  induction ops generalizing e with
  | nil => rfl
  | cons op rest ih =>
    have hop : (e.apply op).2.clocked = e.clocked := by
      rw [clocked_apply, occasions, h op List.mem_cons_self e]
      rfl
    show ((e.apply op).2.applyAll rest).clocked = _
    rw [ih fun o ho => h o (List.mem_cons_of_mem op ho), hop]

/-! ### Firing -/

theorem clocked_runHooks {c : LiveContext} (h : ∀ hook ∈ c.hooks, hook.Quiet) (e : Engine) :
    (e.runHooks c).2.clocked = e.clocked := by
  rw [runHooks_eq]
  refine clocked_applyAll_of_quiet (fun op hop => ?_) e
  obtain ⟨hook, hhook, hop⟩ := List.mem_flatMap.mp hop
  exact h hook hhook op hop

/-- A timer that is due runs the hooks of the context that is torn down. -/
theorem runs_fire (hdue : e.clocked.due? g = some timer) : (e.fire timer.id g).1 =
    ((e.clocked.tornDown? (.fire g)).map fun torn =>
      torn.2.hooks.map fun hook => ⟨hook.name, torn.2⟩).getD [] := by
  unfold Clocked.tornDown?
  dsimp only
  rw [hdue, Option.bind_some]
  show _ = (Option.map _ ((e.presence.fire timer.id g).1.map _)).getD []
  unfold fire Presence.fire
  generalize e.presence.beginFiring timer.id g = begun
  obtain ⟨found, p⟩ := begun
  cases found with
  | none => rfl
  | some firing => rfl

theorem clocked_fire (hdue : e.clocked.due? g = some timer)
    (hquiet : ∀ c, e.presence.contexts[timer.id]? = some c → ∀ hook ∈ c.hooks, hook.Quiet) :
    (e.fire timer.id g).2.clocked = e.clocked.step (.fire g) := by
  have hstep : e.clocked.step (.fire g) = ⟨(e.presence.fire timer.id g).2, e.now⟩ := by
    simp only [Clocked.step, hdue]
    rfl
  rw [hstep]
  unfold fire Presence.fire
  cases hbegin : e.presence.beginFiring timer.id g with
  | mk found p =>
    cases found with
    | none => rfl
    | some firing =>
      have hhooks := clocked_runHooks (hquiet _ (Presence.context_of_beginFiring hbegin))
        (e.withPresence p)
      dsimp only
      generalize (e.withPresence p).runHooks firing.context = ran at hhooks ⊢
      obtain ⟨runs, left⟩ := ran
      have hpresence : left.presence = p := congrArg Clocked.presence hhooks
      have hnow : left.now = e.now := congrArg Clocked.now hhooks
      show (⟨left.presence.finishFiring timer.id firing, left.now⟩ : Clocked TeardownHook) = _
      rw [hpresence, hnow]

/-! ### Paced runs -/

/-- The engine goes on to another, by these events on the clock. No timer is overdue, and
the hooks of a firing are quiet. Renders and documents are not on the clock. -/
inductive Paced (e : Engine) : List (Occasion TeardownHook) → Engine → Prop
  | rest : Paced e [] e
  | operation {es : List (Occasion TeardownHook)} {f : Engine} (op : Operation) :
      Paced e es f → Paced e (es ++ f.occasions op) (f.apply op).2
  | firstLoad {es : List (Occasion TeardownHook)} {f : Engine} (call : Nat) (scope : Scope)
      (c : LiveContext) :
      Paced e es f → Paced e (es ++ [.deed (.register c) trivial]) (f.beginFirstLoad call scope c)
  | fire {es : List (Occasion TeardownHook)} {f : Engine} {g : Nat} {timer : Timer}
      (due : f.clocked.due? g = some timer)
      (quiet : ∀ c, f.presence.contexts[timer.id]? = some c → ∀ hook ∈ c.hooks, hook.Quiet) :
      Paced e es f → Paced e (es ++ [.fire g]) (f.fire timer.id g).2
  | wait {es : List (Occasion TeardownHook)} {f : Engine} (ms : Nat)
      (allowed : f.clocked.allows ms = true) :
      Paced e es f → Paced e (es ++ [.wait ms]) {f with now := f.now + ms}
  | aside {es : List (Occasion TeardownHook)} {f : Engine} (f' : Engine)
      (same : f'.clocked = f.clocked) : Paced e es f → Paced e es f'

theorem Paced.clocked_eq (h : Paced e es f) : f.clocked = es.foldl Clocked.step e.clocked := by
  induction h with
  | rest => rfl
  | operation op _ ih => rw [clocked_apply, List.foldl_append, ih]
  | firstLoad call scope c _ ih =>
    rw [List.foldl_append, ← ih]
    rfl
  | fire due quiet _ ih =>
    rw [clocked_fire due quiet, List.foldl_append, ← ih]
    rfl
  | @wait es f ms allowed _ ih =>
    rw [List.foldl_append, ← ih]
    exact (if_pos allowed).symm
  | aside f' same _ ih => rw [same, ih]

end Engine

/-! ### Calm runs -/

/-- The hooks that the operation brings in are quiet. -/
def Operation.Quiet : Operation → Prop
  | .register c => ∀ hook ∈ c.hooks, hook.Quiet
  | .onTeardown _ hook => hook.Quiet
  | _ => True

/-- The engine goes on to another at its pace, and the hooks it comes to hold are quiet. -/
structure Engine.Calm (e f : Engine) : Prop where
  paced : ∃ es, e.Paced es f
  hooked : f.presence.Hooked TeardownHook.Quiet

namespace Engine
variable {e f : Engine} {g : Nat} {timer : Timer}

theorem brings_deeds {op : Operation} (h : op.Quiet) (e : Engine) :
    ∀ d ∈ e.deeds op, d.Brings TeardownHook.Quiet := by
  cases op with
  | register c =>
    intro d hd
    obtain rfl := List.mem_singleton.mp hd
    exact h
  | onTeardown id hook =>
    intro d hd
    obtain rfl := List.mem_singleton.mp hd
    have hquiet : hook.Quiet := h
    exact Deed.brings_onTeardown hquiet id
  | edit id edits =>
    intro d hd
    obtain rfl := List.mem_singleton.mp hd
    intro c hc hook hhook
    rw [Edit.hooks_applyAll] at hhook
    exact hc hook hhook
  | inspect method params =>
    show ∀ d ∈ inspectionDeeds method params, _
    unfold inspectionDeeds
    split <;> simp [Deed.Brings]
  | _ => simp [deeds, Deed.Brings]

theorem Calm.aside (h : e.Calm f) {f' : Engine} (same : f'.clocked = f.clocked) : e.Calm f' := by
  obtain ⟨es, hpaced⟩ := h.paced
  have hpresence : f'.presence = f.presence := congrArg Clocked.presence same
  exact ⟨⟨es, hpaced.aside f' same⟩, hpresence ▸ h.hooked⟩

theorem Calm.apply (h : e.Calm f) {op : Operation} (hop : op.Quiet) : e.Calm (f.apply op).2 := by
  obtain ⟨es, hpaced⟩ := h.paced
  refine ⟨⟨_, hpaced.operation op⟩, ?_⟩
  rw [presence_apply]
  exact Presence.Hooked.after h.hooked (brings_deeds hop f)

theorem Calm.applyAll (h : e.Calm f) {ops : List Operation} (hops : ∀ op ∈ ops, op.Quiet) :
    e.Calm (f.applyAll ops) := by
  induction ops generalizing f with
  | nil => exact h
  | cons op rest ih =>
    exact ih (h.apply (hops op List.mem_cons_self)) fun o ho => hops o (List.mem_cons_of_mem op ho)

theorem Calm.firstLoad (h : e.Calm f) {c : LiveContext} (hc : ∀ hook ∈ c.hooks, hook.Quiet)
    (call : Nat) (scope : Scope) : e.Calm (f.beginFirstLoad call scope c) := by
  obtain ⟨es, hpaced⟩ := h.paced
  exact ⟨⟨_, hpaced.firstLoad call scope c⟩, Presence.hooked_register h.hooked hc⟩

theorem Calm.fire (h : e.Calm f) (hdue : f.clocked.due? g = some timer) :
    e.Calm (f.fire timer.id g).2 := by
  obtain ⟨es, hpaced⟩ := h.paced
  have hquiet := h.hooked timer.id
  refine ⟨⟨_, hpaced.fire hdue hquiet⟩, ?_⟩
  have hpresence : (f.fire timer.id g).2.presence = (f.clocked.step (.fire g)).presence :=
    congrArg Clocked.presence (clocked_fire hdue hquiet)
  rw [hpresence, Clocked.presence_step]
  refine Presence.Hooked.after h.hooked fun d hd => ?_
  simp only [Clocked.deeds, hdue, Option.map_some, Option.getD_some, Clocked.firingDeeds] at hd
  rcases List.mem_cons.mp hd with rfl | hd
  · trivial
  · obtain ⟨firing, -, rfl⟩ : ∃ firing, _ ∧ Deed.finishFiring timer.id firing = d := by
      simpa using hd
    trivial

theorem Calm.wait (h : e.Calm f) {now : Nat} (hnow : f.now ≤ now)
    (hdue : ∀ (g : Nat) (timer : Timer), f.presence.timers[g]? = some timer → now ≤ timer.due) :
    e.Calm {f with now} := by
  obtain ⟨es, hpaced⟩ := h.paced
  have hallows : f.clocked.allows (now - f.now) = true := by
    unfold Clocked.allows
    rw [List.all_eq_true]
    rintro ⟨g, timer⟩ hmem
    have hle := hdue g timer (ExtTreeMap.mem_toList_iff_getElem?_eq_some.mp hmem)
    have heq : f.now + (now - f.now) = now := Nat.add_sub_cancel' hnow
    simpa [clocked, heq] using hle
  have hwait := hpaced.wait (now - f.now) hallows
  rw [Nat.add_sub_cancel' hnow] at hwait
  exact ⟨⟨_, hwait⟩, h.hooked⟩

end Engine
end SharedViews

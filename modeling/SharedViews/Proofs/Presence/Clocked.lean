import SharedViews.Proofs.Moments
import SharedViews.Proofs.Presence.Timers

/-! Presence on a clock.

A history here is made of deeds, of schedules with a delay, of timers that fire, and of
time that passes. Time never passes the moment at which a timer falls due, so timers
fire when they are due and at no other time; what is to happen at one instant happens in
any order. The hooks of a firing do not call back: its second half follows the first at
once. An event that is not allowed changes nothing, so any list of events is a history.

A timer sleeps from the schedule that set it until something quits it (`timers_iff`):
the schedule is replaced, taken back or overtaken by a registration, or the id is
unregistered while it is live, or the timer fires. -/
namespace SharedViews
open Std

/-- The deed is neither a schedule nor half of a firing. -/
def Deed.Plain {Hook : Type} : Deed Hook → Prop
  | .schedule _ _ | .beginFiring _ _ | .finishFiring _ _ => False
  | _ => True

/-- A firing whose hooks do not call back. -/
def Presence.fire {Hook : Type} (p : Presence Hook) (id : ContextId) (g : Nat) :
    Option (Firing Hook) × Presence Hook :=
  match p.beginFiring id g with
  | (some firing, q) => (some firing, q.finishFiring id firing)
  | (none, q) => (none, q)

structure Clocked (Hook : Type) where
  presence : Presence Hook
  now : Nat

/-- What may happen next. -/
inductive Occasion (Hook : Type)
  | deed (d : Deed Hook) (plain : d.Plain)
  /-- A cleanup is to come after so many milliseconds. -/
  | schedule (id : ContextId) (delay : Nat)
  /-- The timer of the generation fires, if it is due. -/
  | fire (generation : Nat)
  /-- Time passes, if no timer falls due before. -/
  | wait (ms : Nat)

namespace Clocked
variable {Hook : Type}

def start : Clocked Hook := ⟨.empty, 0⟩

/-- The timer of the generation, if it is due. -/
def due? (c : Clocked Hook) (g : Nat) : Option Timer :=
  c.presence.timers[g]?.filter fun timer => timer.due ≤ c.now

/-- Whether no timer falls due in less than that time. -/
def allows (c : Clocked Hook) (ms : Nat) : Bool :=
  c.presence.timers.toList.all fun (_, timer) => c.now + ms ≤ timer.due

def step (c : Clocked Hook) : Occasion Hook → Clocked Hook
  | .deed d _ => {c with presence := c.presence.perform d}
  | .schedule id delay => {c with presence := c.presence.schedule id (c.now + delay)}
  | .fire g =>
    match c.due? g with
    | some timer => {c with presence := (c.presence.fire timer.id g).2}
    | none => c
  | .wait ms => if c.allows ms then {c with now := c.now + ms} else c

/-- Presence and clock after a history. -/
def after (es : List (Occasion Hook)) : Clocked Hook := es.foldl step start

/-- The context that the event tears down, running its hooks. -/
def tornDown? (c : Clocked Hook) : Occasion Hook → Option (ContextId × Context Hook)
  | .fire g =>
    (c.due? g).bind fun timer =>
      (c.presence.fire timer.id g).1.map fun firing => (timer.id, firing.context)
  | _ => none

variable {es es' past : List (Occasion Hook)} {e : Occasion Hook} {c : Clocked Hook}
  {id x : ContextId} {g : Nat} {timer : Timer}

/-- A timer of the id fires after `past`. -/
def Fires (es past : List (Occasion Hook)) (id : ContextId) : Prop :=
  ∃ g timer, Comes es past (.fire g) ∧ (after past).due? g = some timer ∧ timer.id = id

/-- The event resets the id: it registers it, sets or takes back its cleanup, or
unregisters it while it is live. -/
def Resets (id : ContextId) (past : List (Occasion Hook)) : Occasion Hook → Prop
  | .deed d _ => (after past).presence.Retires id d
  | .schedule x _ => x = id
  | _ => False

/-- The event sets the timer, under the generation. -/
def Sets (timer : Timer) (g : Nat) (past : List (Occasion Hook)) (e : Occasion Hook) : Prop :=
  ∃ delay, e = .schedule timer.id delay ∧ timer.due = (after past).now + delay ∧
    g = (after past).presence.lastGeneration + 1

/-- The event resets the id, or the timer of the generation fires. -/
def Quits (id : ContextId) (g : Nat) (past : List (Occasion Hook)) (e : Occasion Hook) : Prop :=
  Resets id past e ∨ (e = .fire g ∧ ((after past).due? g).isSome = true)

theorem after_concat (es : List (Occasion Hook)) (e : Occasion Hook) :
    after (es ++ [e]) = (after es).step e := List.foldl_append

theorem after_mono {P : Clocked Hook → Prop} (hstep : ∀ c e, P c → P (c.step e)) (h : es <+: es')
    (hes : P (after es)) : P (after es') := foldl_mono hstep h hes

theorem due?_eq_some_iff :
    c.due? g = some timer ↔ c.presence.timers[g]? = some timer ∧ timer.due ≤ c.now := by
  unfold due?
  rw [Option.filter_eq_some_iff]
  simp

theorem due_of_allows {ms : Nat} (h : c.allows ms = true) (hg : c.presence.timers[g]? = some timer) :
    c.now + ms ≤ timer.due := by
  unfold allows at h
  rw [List.all_eq_true] at h
  have hmem : (g, timer) ∈ c.presence.timers.toList := ExtTreeMap.mem_toList_iff_getElem?_eq_some.mpr hg
  simpa using h _ hmem

/-! ### One event -/

/-- The deeds that a firing comes to. -/
def firingDeeds (p : Presence Hook) (id : ContextId) (g : Nat) : List (Deed Hook) :=
  .beginFiring id g :: ((p.beginFiring id g).1.map fun firing => .finishFiring id firing).toList

theorem fire_eq_after (p : Presence Hook) (id : ContextId) (g : Nat) :
    (p.fire id g).2 = p.after (firingDeeds p id g) := by
  unfold Presence.fire firingDeeds
  show _ = (p.beginFiring id g).2.after _
  generalize p.beginFiring id g = begun
  obtain ⟨found, q⟩ := begun
  cases found with
  | none => rfl
  | some firing => rfl

/-- The deeds that an event comes to. -/
def deeds (c : Clocked Hook) : Occasion Hook → List (Deed Hook)
  | .deed d _ => [d]
  | .schedule id delay => [.schedule id (c.now + delay)]
  | .fire g => ((c.due? g).map fun timer => firingDeeds c.presence timer.id g).getD []
  | .wait _ => []

theorem presence_step (c : Clocked Hook) (e : Occasion Hook) :
    (c.step e).presence = c.presence.after (c.deeds e) := by
  cases e with
  | deed d plain => rfl
  | schedule id delay => rfl
  | fire g =>
    unfold step deeds
    dsimp only
    cases c.due? g with
    | none => rfl
    | some timer => exact fire_eq_after c.presence timer.id g
  | wait ms =>
    unfold step
    dsimp only
    split
    · rfl
    · rfl

/-- What every deed keeps, every event keeps. -/
theorem presence_invariant {P : Presence Hook → Prop} (hstep : ∀ p d, P p → P (p.perform d))
    (e : Occasion Hook) (h : P c.presence) : P (c.step e).presence := by
  rw [presence_step]
  exact Presence.after_invariant P hstep h _

theorem now_step (c : Clocked Hook) (e : Occasion Hook) : c.now ≤ (c.step e).now := by
  cases e with
  | deed d plain => exact Nat.le_refl _
  | schedule id delay => exact Nat.le_refl _
  | fire g =>
    unfold step
    dsimp only
    split
    · exact Nat.le_refl _
    · exact Nat.le_refl _
  | wait ms =>
    unfold step
    dsimp only
    split
    · exact Nat.le_add_right _ _
    · exact Nat.le_refl _

theorem now_mono (h : es <+: es') : (after es).now ≤ (after es').now :=
  after_mono (P := fun c => (after es).now ≤ c.now)
    (fun c e hle => Nat.le_trans hle (c.now_step e)) h (Nat.le_refl _)

theorem timely_after (es : List (Occasion Hook)) : (after es).presence.Timely :=
  after_mono (P := fun c => c.presence.Timely)
    (fun _ e h => presence_invariant (fun _ d hp => hp.perform d) e h) (List.nil_prefix (l := es))
    Presence.timely_empty

theorem registered_after (es : List (Occasion Hook)) : (after es).presence.Registered :=
  after_mono (P := fun c => c.presence.Registered)
    (fun _ e h => presence_invariant (P := Presence.Registered)
      (fun _ d hp => Presence.registered_perform hp d) e h)
    (List.nil_prefix (l := es)) Presence.registered_empty

theorem sound_after (es : List (Occasion Hook)) : (after es).presence.scopes.Sound :=
  after_mono (P := fun c => c.presence.scopes.Sound)
    (fun _ e h => presence_invariant (P := fun p => p.scopes.Sound)
      (fun _ d hp => Presence.sound_perform hp d) e h)
    (List.nil_prefix (l := es)) Membership.sound_empty

/-! ### Timers -/

/-- A firing quits the timers of its id and leaves the others. -/
theorem timers_fire {p : Presence Hook} (hp : p.Timely) (hg : p.timers[g]? = some timer)
    (k : Nat) (other : Timer) : (p.fire timer.id g).2.timers[k]? = some other ↔
      p.timers[k]? = some other ∧ k ≠ g := by
  have hpending := (hp.inStep timer.id g).mpr ⟨timer.due, hg⟩
  have hbegun : (p.fire timer.id g).2.timers = (p.perform (.beginFiring timer.id g)).timers := by
    unfold Presence.fire Presence.perform
    dsimp only
    generalize p.beginFiring timer.id g = begun
    obtain ⟨found, q⟩ := begun
    cases found with
    | none => rfl
    | some firing => exact congrArg Prod.snd (q.alarms_finishFiring timer.id firing)
  rw [hbegun, hp.timers_perform]
  constructor
  · rintro (⟨heq, -⟩ | ⟨hk, hstays⟩)
    · cases heq
    · refine ⟨hk, ?_⟩
      rintro rfl
      obtain rfl := Option.some.inj (hk.symm.trans hg)
      exact hstays (.fires hpending)
  · rintro ⟨hk, hne⟩
    refine .inr ⟨hk, fun hr => ?_⟩
    obtain hid := hr.unique (.fires hpending)
    have hpending' := (hp.inStep other.id k).mpr ⟨other.due, hk⟩
    rw [hid] at hpending'
    exact hne (Option.some.inj (hpending'.symm.trans hpending))

/-- A timer sleeps from the schedule that set it until something quits it. -/
theorem timers_iff (es : List (Occasion Hook)) (timer : Timer) (g : Nat) :
    (after es).presence.timers[g]? = some timer ↔ Since (Sets timer g) (Quits timer.id g) es := by
  refine since_iff (P := fun es => (after es).presence.timers[g]? = some timer) ?_ ?_ es
  · simp [after, start, Presence.empty]
  intro es e
  have htimely := timely_after es
  rw [after_concat]
  cases e with
  | deed d plain =>
    refine (htimely.timers_perform d g timer).trans (or_congr ?_ ?_)
    · refine iff_of_false ?_ ?_
      · rintro ⟨rfl, -⟩
        exact plain
      · rintro ⟨_, heq, -⟩
        cases heq
    · refine and_congr_right fun _ => not_congr ?_
      unfold Quits Resets
      simp
  | schedule id delay =>
    refine (htimely.timers_perform (.schedule id ((after es).now + delay)) g timer).trans
      (or_congr ?_ ?_)
    · constructor
      · rintro ⟨heq, hg⟩
        obtain ⟨rfl, hdue⟩ := Deed.schedule.inj heq
        exact ⟨delay, rfl, hdue.symm, hg⟩
      · rintro ⟨_, heq, hdue, hg⟩
        obtain ⟨rfl, rfl⟩ := Occasion.schedule.inj heq
        exact ⟨by rw [hdue], hg⟩
    · refine and_congr_right fun _ => not_congr ?_
      constructor
      · rintro ⟨⟩
        exact .inl rfl
      · rintro (rfl | ⟨heq, -⟩)
        · exact .schedule _
        · cases heq
  | fire k =>
    have hquits : Quits timer.id g es (.fire k) ↔ k = g ∧ ((after es).due? g).isSome = true := by
      unfold Quits Resets
      simp
    have hsets : ¬ Sets timer g es (.fire k) := by
      rintro ⟨_, heq, -⟩
      cases heq
    rw [hquits, or_iff_right hsets]
    cases hdue : (after es).due? k with
    | none =>
      have hsame : (after es).step (.fire k) = after es := by simp only [step, hdue]
      rw [hsame]
      refine ⟨fun h => ⟨h, ?_⟩, fun h => h.1⟩
      rintro ⟨rfl, hsome⟩
      rw [hdue] at hsome
      cases hsome
    | some other =>
      have hfire : ((after es).step (.fire k)).presence =
          ((after es).presence.fire other.id k).2 := by simp only [step, hdue]
      rw [hfire, timers_fire htimely (due?_eq_some_iff.mp hdue).1]
      refine and_congr_right fun _ => not_congr ?_
      constructor
      · rintro rfl
        exact ⟨rfl, by rw [hdue]; rfl⟩
      · exact fun h => h.1.symm
  | wait ms =>
    have hsame := (after es).presence_step (.wait ms)
    rw [hsame]
    refine ⟨fun h => .inr ⟨h, ?_⟩, ?_⟩
    · rintro (hreset | ⟨heq, -⟩)
      · exact hreset
      · cases heq
    · rintro (⟨_, heq, -⟩ | ⟨h, -⟩)
      · cases heq
      · exact h

/-- No timer is overdue. -/
theorem now_le_due (h : (after es).presence.timers[g]? = some timer) :
    (after es).now ≤ timer.due := by
  induction es using List.reverseRecOn with
  | nil => simp [after, start, Presence.empty] at h
  | append_singleton es e ih =>
    have hsince := (timers_iff _ _ _).mp h
    rw [after_concat] at h ⊢
    rcases since_concat.mp hsince with ⟨delay, rfl, hdue, -⟩ | ⟨hold, -⟩
    · rw [hdue]
      exact Nat.le_add_right _ _
    · have htimer := (timers_iff es timer g).mpr hold
      have hle := ih htimer
      cases e with
      | deed d plain => exact hle
      | schedule id delay => exact hle
      | fire k =>
        unfold step
        dsimp only
        split
        · exact hle
        · exact hle
      | wait ms =>
        unfold step
        dsimp only
        split
        next hallows => exact due_of_allows hallows htimer
        next => exact hle

end Clocked
end SharedViews

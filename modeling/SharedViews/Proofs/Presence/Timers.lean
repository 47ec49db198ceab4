import SharedViews.Proofs.Presence.Firing

/-! Pending cleanups and their timers.

The table of pending cleanups and that of sleeping timers are kept in step: the timer of
a generation sleeps for an id exactly while that generation is pending for it
(`Timely`). A deed leaves both tables alone, takes one id out of both, or sets a new
timer for one id, in place of the one it may have (`alarm`). So of every pending entry
one can say what it takes to end it (`Retires`), and that nothing else does
(`pending_perform`, `Timely.timers_perform`). A generation that was given and is pending
no more is spent, and stays so, for no generation is given twice. -/
namespace SharedViews.Presence
open Std
variable {Hook : Type} {p q : Presence Hook} {id x : ContextId} {d : Deed Hook} {g : Nat}
  {timer : Timer}

/-- What presence has of cleanups to come. -/
def alarms (p : Presence Hook) : ExtTreeMap ContextId Nat × ExtTreeMap Nat Timer :=
  (p.pending, p.timers)

/-- A timer sleeps for every pending cleanup and for nothing else, and pending
generations have been given. -/
structure Timely (p : Presence Hook) : Prop where
  inStep : ∀ (id : ContextId) (g : Nat),
    p.pending[id]? = some g ↔ ∃ due, p.timers[g]? = some ⟨id, due⟩
  given : ∀ (id : ContextId) (g : Nat), p.pending[id]? = some g → g ≤ p.lastGeneration

/-- The deed puts an end to the pending cleanup that the id may have: it replaces it,
takes it back, settles the id, or begins the firing of its timer. -/
inductive Retires (p : Presence Hook) (id : ContextId) : Deed Hook → Prop
  | schedule (due : Nat) : Retires p id (.schedule id due)
  | cancel : Retires p id (.cancel id)
  | register (c : Context Hook) (own : c.id = id) : Retires p id (.register c)
  | unregister (live : id ∈ p.contexts) : Retires p id (.unregister id)
  | fires {g : Nat} (pending : p.pending[id]? = some g) : Retires p id (.beginFiring id g)

/-- A deed retires the cleanup of one id at most. -/
theorem Retires.unique (h : p.Retires id d) (h' : p.Retires x d) : id = x := by
  cases h with
  | register c own =>
    cases h' with
    | register _ own' => exact own.symm.trans own'
  | _ => cases h'; rfl

/-! ### Taking one id out -/

theorem alarms_of_registry (h : p.registry = q.registry) : p.alarms = q.alarms := by
  have halarms := congrArg alarms h
  exact halarms

theorem alarms_cancel_congr (h : p.alarms = q.alarms) (id : ContextId) :
    (p.cancel id).alarms = (q.cancel id).alarms := by
  have hpending : p.pending = q.pending := congrArg Prod.fst h
  have htimers : p.timers = q.timers := congrArg Prod.snd h
  unfold cancel
  rw [hpending]
  split
  · unfold alarms
    rw [htimers]
  · exact h

theorem cancel_of_none (h : p.pending[id]? = none) : p.cancel id = p := by
  unfold cancel
  rw [h]

/-- The timers of the others stay. -/
theorem Timely.timers_cancel (hp : Timely p) (id : ContextId) (g : Nat) (timer : Timer) :
    (p.cancel id).timers[g]? = some timer ↔ p.timers[g]? = some timer ∧ timer.id ≠ id := by
  unfold cancel
  split
  next generation hpending =>
    -- The timer that goes is the only one of the id.
    show (p.timers.erase generation)[g]? = some timer ↔ _
    rw [ExtTreeMap.getElem?_erase]
    by_cases hg : generation = g
    · subst hg
      obtain ⟨due, hdue⟩ := (hp.inStep id generation).mp hpending
      rw [if_pos Std.compare_self]
      refine ⟨nofun, ?_⟩
      rintro ⟨htimer, hne⟩
      obtain rfl := Option.some.inj (hdue.symm.trans htimer)
      exact absurd rfl hne
    · rw [if_neg (by simpa using hg)]
      refine ⟨fun htimer => ⟨htimer, ?_⟩, fun h => h.1⟩
      rintro rfl
      have hpending' := (hp.inStep timer.id g).mpr ⟨timer.due, htimer⟩
      exact hg (Option.some.inj (hpending.symm.trans hpending'))
  next hpending =>
    refine ⟨fun htimer => ⟨htimer, ?_⟩, fun h => h.1⟩
    rintro rfl
    cases hpending.symm.trans ((hp.inStep timer.id g).mpr ⟨timer.due, htimer⟩)

theorem Timely.cancel (hp : Timely p) (id : ContextId) : Timely (p.cancel id) := by
  refine ⟨fun x g => ?_, fun x g hg => ?_⟩
  · simp only [hp.timers_cancel, pending_cancel]
    by_cases hx : id = x
    · simp [hx]
    · rw [if_neg hx, hp.inStep]
      simp [Ne.symm hx]
  · rw [pending_cancel] at hg
    rw [lastGeneration_cancel]
    split at hg
    · cases hg
    · exact hp.given x g hg

/-! ### What a deed does to the tables -/

inductive Alarm (p q : Presence Hook) : Deed Hook → Prop
  | keep {d : Deed Hook} (stays : ∀ id, ¬ p.Retires id d) (alarms : q.alarms = p.alarms) :
      Alarm p q d
  | drop {d : Deed Hook} {id : ContextId} (retires : p.Retires id d)
      (old : ∀ due, d ≠ .schedule id due) (alarms : q.alarms = (p.cancel id).alarms) : Alarm p q d
  | set (id : ContextId) (due : Nat) (alarms : q.alarms = (p.schedule id due).alarms) :
      Alarm p q (.schedule id due)

theorem alarms_register (p : Presence Hook) (c : Context Hook) :
    (p.register c).alarms = (p.cancel c.id).alarms := by
  rw [register_eq, alarms_of_registry (registry_realign _ _ _ _)]
  rfl

theorem alarms_unregister (h : id ∈ p.contexts) :
    (p.unregister id).alarms = (p.cancel id).alarms := by
  rw [unregister_eq h]
  refine alarms_cancel_congr ?_ id
  rfl

theorem alarms_change {α : Type} (p : Presence Hook) (id : ContextId)
    (f : Context Hook → α × Context Hook) : (p.change id f).2.alarms = p.alarms := by
  obtain ⟨_, h⟩ := p.registry_change id f
  have halarms := alarms_of_registry h
  exact halarms

/-- The second half of a firing finds nothing pending, or does nothing. -/
theorem alarms_finishFiring (p : Presence Hook) (id : ContextId) (firing : Firing Hook) :
    (p.finishFiring id firing).alarms = p.alarms := by
  unfold finishFiring
  split
  next h =>
    have hnone := not_isPending_iff.mp h.2
    by_cases hlive : id ∈ p.contexts
    · rw [alarms_unregister hlive, cancel_of_none hnone]
    · rw [unregister_of_not_mem hlive]
  next => rfl

theorem alarm (p : Presence Hook) (d : Deed Hook) : Alarm p (p.perform d) d := by
  cases d with
  | register c => exact .drop (.register c rfl) nofun (p.alarms_register c)
  | unregister id =>
    by_cases hlive : id ∈ p.contexts
    · exact .drop (.unregister hlive) nofun (alarms_unregister hlive)
    · refine .keep (fun x h => ?_) (congrArg alarms (unregister_of_not_mem hlive))
      cases h with
      | unregister live => exact hlive live
  | change id f => exact .keep nofun (p.alarms_change id _)
  | navigate id route => exact .keep nofun (p.alarms_change id fun c => ((), {c with route}))
  | joinCustom id scope => exact .keep nofun (p.alarms_change id (·.joinCustom scope))
  | leaveCustom id scope => exact .keep nofun (p.alarms_change id (·.leaveCustom scope))
  | schedule id due => exact .set id due rfl
  | cancel id => exact .drop .cancel nofun rfl
  | beginFiring id g =>
    show Alarm p (p.beginFiring id g).2 _
    unfold beginFiring
    split
    next h => exact .drop (.fires h) nofun rfl
    next h =>
      refine .keep (fun x hx => ?_) rfl
      cases hx with
      | fires pending => exact h pending
  | finishFiring id firing => exact .keep nofun (p.alarms_finishFiring id firing)
  | _ => exact .keep nofun rfl

/-- A cleanup is pending when it is set, and until it is retired. -/
theorem pending_perform (p : Presence Hook) (d : Deed Hook) (id : ContextId) (g : Nat) :
    (p.perform d).pending[id]? = some g ↔
      (∃ due, d = .schedule id due ∧ g = p.lastGeneration + 1) ∨
        (p.pending[id]? = some g ∧ ¬ p.Retires id d) := by
  have hpending : ∀ {q : Presence Hook}, (p.perform d).alarms = q.alarms →
      (p.perform d).pending = q.pending := fun h => congrArg Prod.fst h
  cases p.alarm d with
  | keep stays h =>
    rw [hpending h]
    refine ⟨fun hg => .inr ⟨hg, stays id⟩, ?_⟩
    rintro (⟨due, rfl, -⟩ | ⟨hg, -⟩)
    · exact absurd (.schedule due) (stays id)
    · exact hg
  | @drop _ x retires old h =>
    rw [hpending h, pending_cancel]
    by_cases hx : x = id
    · subst hx
      rw [if_pos rfl]
      refine ⟨nofun, ?_⟩
      rintro (⟨due, rfl, -⟩ | ⟨-, hstays⟩)
      · exact absurd rfl (old due)
      · exact absurd retires hstays
    · rw [if_neg hx]
      refine ⟨fun hg => .inr ⟨hg, fun hr => hx (retires.unique hr)⟩, ?_⟩
      rintro (⟨due, rfl, -⟩ | ⟨hg, -⟩)
      · obtain rfl := retires.unique (.schedule due)
        exact absurd rfl hx
      · exact hg
  | set x due h =>
    have hset : (p.schedule x due).pending[id]? =
        if x = id then some (p.lastGeneration + 1) else p.pending[id]? := by
      have hs := congrArg Standing.pending (p.standing_schedule x due id)
      refine hs.trans ?_
      split <;> rfl
    rw [hpending h, hset]
    by_cases hx : x = id
    · subst hx
      rw [if_pos rfl]
      refine ⟨fun hg => .inl ⟨due, rfl, (Option.some.inj hg).symm⟩, ?_⟩
      rintro (⟨_, -, rfl⟩ | ⟨-, hstays⟩)
      · rfl
      · exact absurd (.schedule due) hstays
    · rw [if_neg hx]
      refine ⟨fun hg => .inr ⟨hg, fun hr => ?_⟩, ?_⟩
      · cases hr
        exact hx rfl
      · rintro (⟨_, heq, -⟩ | ⟨hg, -⟩)
        · cases heq
          exact absurd rfl hx
        · exact hg

/-- A timer sleeps when it is set, and until the cleanup it is for is retired. -/
theorem Timely.timers_perform (hp : Timely p) (d : Deed Hook) (g : Nat) (timer : Timer) :
    (p.perform d).timers[g]? = some timer ↔
      (d = .schedule timer.id timer.due ∧ g = p.lastGeneration + 1) ∨
        (p.timers[g]? = some timer ∧ ¬ p.Retires timer.id d) := by
  have htimers : ∀ {q : Presence Hook}, (p.perform d).alarms = q.alarms →
      (p.perform d).timers = q.timers := fun h => congrArg Prod.snd h
  cases p.alarm d with
  | keep stays h =>
    rw [htimers h]
    refine ⟨fun hg => .inr ⟨hg, stays timer.id⟩, ?_⟩
    rintro (⟨rfl, -⟩ | ⟨hg, -⟩)
    · exact absurd (.schedule timer.due) (stays timer.id)
    · exact hg
  | @drop _ x retires old h =>
    rw [htimers h, hp.timers_cancel]
    constructor
    · rintro ⟨hg, hne⟩
      exact .inr ⟨hg, fun hr => hne (hr.unique retires)⟩
    · rintro (⟨rfl, -⟩ | ⟨hg, hstays⟩)
      · obtain rfl := retires.unique (.schedule timer.due)
        exact absurd rfl (old timer.due)
      · exact ⟨hg, fun hx => hstays (hx ▸ retires)⟩
  | set x due h =>
    have hset : (p.schedule x due).timers[g]? =
        if p.lastGeneration + 1 = g then some ⟨x, due⟩ else (p.cancel x).timers[g]? := by
      show ((p.cancel x).timers.insert ((p.cancel x).lastGeneration + 1) ⟨x, due⟩)[g]? = _
      rw [ExtTreeMap.getElem?_insert, lastGeneration_cancel]
      simp only [Std.compare_eq_iff_eq]
    rw [htimers h, hset]
    by_cases hg : p.lastGeneration + 1 = g
    · subst hg
      rw [if_pos rfl]
      constructor
      · intro hnew
        obtain rfl := Option.some.inj hnew
        exact .inl ⟨rfl, rfl⟩
      · rintro (⟨heq, -⟩ | ⟨hold, -⟩)
        · cases heq
          rfl
        · have hle := hp.given timer.id _ ((hp.inStep _ _).mpr ⟨timer.due, hold⟩)
          omega
    · rw [if_neg hg, hp.timers_cancel]
      constructor
      · rintro ⟨hold, hne⟩
        refine .inr ⟨hold, fun hr => ?_⟩
        cases hr
        exact hne rfl
      · rintro (⟨-, rfl⟩ | ⟨hold, hstays⟩)
        · exact absurd rfl hg
        · exact ⟨hold, fun hx => hstays (hx ▸ .schedule due)⟩

/-! ### Over whole runs -/

theorem timely_empty : Timely (empty : Presence Hook) := by
  refine ⟨fun id g => ?_, fun id g h => ?_⟩
  · simp [empty]
  · simp [empty] at h

theorem Timely.perform (hp : Timely p) (d : Deed Hook) : Timely (p.perform d) := by
  refine ⟨fun id g => ?_, fun id g hg => ?_⟩
  · rw [pending_perform, hp.inStep]
    simp only [hp.timers_perform]
    constructor
    · rintro (⟨due, rfl, rfl⟩ | ⟨⟨due, hold⟩, hstays⟩)
      · exact ⟨due, .inl ⟨rfl, rfl⟩⟩
      · exact ⟨due, .inr ⟨hold, hstays⟩⟩
    · rintro ⟨due, ⟨rfl, rfl⟩ | ⟨hold, hstays⟩⟩
      · exact .inl ⟨due, rfl, rfl⟩
      · exact .inr ⟨⟨due, hold⟩, hstays⟩
  · rcases (pending_perform p d id g).mp hg with ⟨due, rfl, rfl⟩ | ⟨hold, -⟩
    · exact Nat.le_of_eq (p.lastGeneration_schedule id due).symm
    · exact Nat.le_trans (hp.given id g hold) (p.lastGeneration_perform d)

theorem Timely.after (hp : Timely p) (deeds : List (Deed Hook)) : Timely (p.after deeds) :=
  after_invariant Timely (fun _ d hq => hq.perform d) hp deeds

/-- The generation was given, and nothing is pending under it. -/
def Spent (g : Nat) (p : Presence Hook) : Prop :=
  g ≤ p.lastGeneration ∧ ∀ id : ContextId, p.pending[id]? ≠ some g

theorem spent_perform (hp : p.Spent g) (d : Deed Hook) : (p.perform d).Spent g := by
  refine ⟨Nat.le_trans hp.1 (p.lastGeneration_perform d), fun id hg => ?_⟩
  rcases (pending_perform p d id g).mp hg with ⟨_, -, rfl⟩ | ⟨hold, -⟩
  · exact absurd hp.1 (Nat.not_succ_le_self _)
  · exact hp.2 id hold

/-- The generation that a deed retires is spent. -/
theorem Timely.spent_of_retires (hp : Timely p) (hpending : p.pending[id]? = some g)
    (hd : p.Retires id d) : (p.perform d).Spent g := by
  refine ⟨Nat.le_trans (hp.given id g hpending) (p.lastGeneration_perform d), fun x hx => ?_⟩
  rcases (pending_perform p d x g).mp hx with ⟨_, -, rfl⟩ | ⟨hold, hstays⟩
  · exact absurd (hp.given id _ hpending) (Nat.not_succ_le_self _)
  · obtain ⟨due, htimer⟩ := (hp.inStep id g).mp hpending
    obtain ⟨due', htimer'⟩ := (hp.inStep x g).mp hold
    cases htimer.symm.trans htimer'
    exact hstays hd

end SharedViews.Presence

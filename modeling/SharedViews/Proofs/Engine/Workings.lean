import SharedViews.Proofs.Engine.Teardown
import SharedViews.Proofs.Moments
import SharedViews.Proofs.Presence.Timers
import Mathlib.Data.List.InsertIdx
import Mathlib.Data.List.Nodup

/-! Timers that call at any moment.

The task of a timer may call when its sleep is over, and also after it was aborted, for
an abort can come too late. Its call takes the pending cleanup of its generation, if
that is still there; then the hooks run, while anybody may do anything, and then the
second half follows. So a history here is made of three kinds of events: a deed that is
no half of a firing, the call of any timer for any id at any moment, and the second
half of any firing that is open. Each course of the engine is such a history
(`of_course`). -/
namespace SharedViews
open Std

/-- A firing between its two halves, and the timer that it is of. -/
structure Opened (Hook : Type) where
  id : ContextId
  generation : Nat
  firing : Firing Hook

/-- Presence, and the firings whose hooks are running. -/
structure Workings (Hook : Type) where
  presence : Presence Hook
  opened : List (Opened Hook)

/-- What may happen next. -/
inductive Beat (Hook : Type)
  /-- Somebody, perhaps a hook, does what is no half of a firing. -/
  | deed (d : Deed Hook) (whole : d.Whole)
  /-- The task of a timer calls. -/
  | strike (id : ContextId) (generation : Nat)
  /-- The hooks of an open firing have run. -/
  | settle (index : Nat)

/-- A schedule. -/
def Beat.schedule {Hook : Type} (id : ContextId) (due : Nat) : Beat Hook :=
  .deed (.schedule id due) trivial

namespace Workings
variable {Hook : Type}

def empty : Workings Hook := ⟨.empty, []⟩

def step (w : Workings Hook) : Beat Hook → Workings Hook
  | .deed d _ => {w with presence := w.presence.perform d}
  | .strike id generation =>
    match w.presence.beginFiring id generation with
    | (some firing, presence) => ⟨presence, w.opened ++ [⟨id, generation, firing⟩]⟩
    | (none, presence) => {w with presence}
  | .settle index =>
    match w.opened[index]? with
    | some o => ⟨w.presence.finishFiring o.id o.firing, w.opened.eraseIdx index⟩
    | none => w

/-- The workings after a history. -/
def after (es : List (Beat Hook)) : Workings Hook := es.foldl step empty

/-- The event sets the timer, under the generation. -/
def Sets (timer : Timer) (g : Nat) (past : List (Beat Hook)) (e : Beat Hook) : Prop :=
  e = .schedule timer.id timer.due ∧ g = (after past).presence.lastGeneration + 1

/-- The event retires what the id has pending under the generation: a deed does, or the
timer calls. -/
def Quits (id : ContextId) (g : Nat) (past : List (Beat Hook)) : Beat Hook → Prop
  | .deed d _ => (after past).presence.Retires id d
  | .strike x generation => x = id ∧ generation = g
  | .settle _ => False

/-- The task of the timer is alive: it was set under the generation, and has neither
called nor been aborted since. -/
def Alive (es : List (Beat Hook)) (timer : Timer) (g : Nat) : Prop :=
  Since (Sets timer g) (Quits timer.id g) es

/-- After `past` a timer of the generation calls and finds a context, so hooks run. -/
def Opens (es past : List (Beat Hook)) (g : Nat) : Prop :=
  ∃ id, Comes es past (.strike id g) ∧ ((after past).presence.beginFiring id g).1.isSome = true

/-- After `past` a firing of the generation comes to its second half. -/
def Closes (es past : List (Beat Hook)) (g : Nat) : Prop :=
  ∃ index o, Comes es past (.settle index) ∧ (after past).opened[index]? = some o ∧
    o.generation = g

/-- After `past` the second half of a firing of the generation removes the context. -/
def Removes (es past : List (Beat Hook)) (id : ContextId) (g : Nat) : Prop :=
  ∃ index firing, Comes es past (.settle index) ∧
    (after past).opened[index]? = some ⟨id, g, firing⟩ ∧ id ∈ (after past).presence.contexts ∧
    id ∉ (after (past ++ [.settle index])).presence.contexts

variable {es es' past : List (Beat Hook)} {e : Beat Hook} {w : Workings Hook} {id : ContextId}
  {g : Nat} {timer : Timer}

theorem after_concat (es : List (Beat Hook)) (e : Beat Hook) :
    after (es ++ [e]) = (after es).step e := List.foldl_append

theorem after_mono {P : Workings Hook → Prop} (hstep : ∀ w e, P w → P (w.step e)) (h : es <+: es')
    (hes : P (after es)) : P (after es') := foldl_mono hstep h hes

/-! ### One event -/

/-- The deed that the event is. -/
def deed? (w : Workings Hook) : Beat Hook → Option (Deed Hook)
  | .deed d _ => some d
  | .strike id generation => some (.beginFiring id generation)
  | .settle index => w.opened[index]?.map fun o => .finishFiring o.id o.firing

theorem eq_schedule_iff {d : Deed Hook} {whole : d.Whole} {due : Nat} :
    Beat.deed d whole = .schedule id due ↔ d = .schedule id due := by
  unfold Beat.schedule
  constructor
  · intro h
    cases h
    rfl
  · rintro rfl
    rfl

theorem schedule_inj {due due' : Nat} {id' : ContextId}
    (h : (Beat.schedule id due : Beat Hook) = .schedule id' due') : id = id' ∧ due = due' := by
  unfold Beat.schedule at h
  cases h
  exact ⟨rfl, rfl⟩

theorem presence_step (w : Workings Hook) (e : Beat Hook) :
    (w.step e).presence = w.presence.after (w.deed? e).toList := by
  cases e with
  | deed d whole => rfl
  | strike id generation =>
    have hdeed : w.presence.after (w.deed? (.strike id generation)).toList =
        (w.presence.beginFiring id generation).2 := rfl
    rw [hdeed]
    unfold step
    dsimp only
    generalize w.presence.beginFiring id generation = begun
    obtain ⟨found, presence⟩ := begun
    cases found with
    | none => rfl
    | some firing => rfl
  | settle index =>
    unfold step deed?
    dsimp only
    cases w.opened[index]? with
    | none => rfl
    | some o => rfl

/-- What every deed keeps, every event keeps. -/
theorem presence_invariant {P : Presence Hook → Prop}
    (hstep : ∀ p d, P p → P (p.perform d)) (e : Beat Hook) (h : P w.presence) :
    P (w.step e).presence := by
  rw [presence_step]
  exact Presence.after_invariant P hstep h _

theorem timely_after (es : List (Beat Hook)) : (after es).presence.Timely := by
  refine after_mono (P := fun w => w.presence.Timely) ?_ (List.nil_prefix (l := es))
    Presence.timely_empty
  intro w e h
  exact presence_invariant (fun _ d hp => hp.perform d) e h

theorem lastGeneration_mono (h : es <+: es') :
    (after es).presence.lastGeneration ≤ (after es').presence.lastGeneration :=
  after_mono (P := fun w => (after es).presence.lastGeneration ≤ w.presence.lastGeneration)
    (fun _ e hle => presence_invariant (fun p d h => Nat.le_trans h (p.lastGeneration_perform d))
      e hle) h (Nat.le_refl _)

/-- The call of a timer whose generation is not pending does nothing. -/
theorem step_strike_of_ne (h : w.presence.pending[id]? ≠ some g) : w.step (.strike id g) = w := by
  simp only [step, Presence.beginFiring_of_ne h]

/-! ### Timers and their tasks -/

/-- A timer sleeps exactly while its task is alive. -/
theorem timers_iff (es : List (Beat Hook)) (timer : Timer) (g : Nat) :
    (after es).presence.timers[g]? = some timer ↔ Alive es timer g := by
  refine since_iff (P := fun es => (after es).presence.timers[g]? = some timer) ?_ ?_ es
  · simp [after, empty, Presence.empty]
  intro es e
  have htimely := timely_after es
  have hpending : (after es).presence.timers[g]? = some timer →
      (after es).presence.pending[timer.id]? = some g :=
    fun h => (htimely.inStep timer.id g).mpr ⟨timer.due, h⟩
  rw [after_concat, presence_step]
  cases e with
  | deed d whole =>
    refine (htimely.timers_perform d g timer).trans (or_congr_left ?_)
    rw [Sets, eq_schedule_iff]
  | strike id generation =>
    refine (htimely.timers_perform (.beginFiring id generation) g timer).trans ?_
    refine or_congr (iff_of_false ?_ ?_) (and_congr_right fun h => not_congr ⟨?_, ?_⟩)
    · rintro ⟨heq, -⟩
      cases heq
    · rintro ⟨heq, -⟩
      cases heq
    · rintro ⟨⟩
      next pending => exact ⟨rfl, Option.some.inj (pending.symm.trans (hpending h))⟩
    · rintro ⟨rfl, rfl⟩
      exact .fires (hpending h)
  | settle index =>
    have hsame : ((after es).presence.after ((after es).deed? (.settle index)).toList).timers =
        (after es).presence.timers := by
      unfold deed?
      dsimp only
      cases (after es).opened[index]? with
      | none => rfl
      | some o => exact congrArg Prod.snd (Presence.alarms_finishFiring _ o.id o.firing)
    rw [hsame]
    refine ⟨fun h => .inr ⟨h, id⟩, ?_⟩
    rintro (⟨heq, -⟩ | ⟨h, -⟩)
    · cases heq
    · exact h

/-- No two schedules give the same generation. -/
theorem Sets.unique {past' : List (Beat Hook)} {e' : Beat Hook} {timer' : Timer}
    (hcomes : Comes es past e) (h : Sets timer g past e) (hcomes' : Comes es past' e')
    (h' : Sets timer' g past' e') : past = past' ∧ timer = timer' := by
  have hnot : ∀ {a b : List (Beat Hook)} {x y : Beat Hook} {s t : Timer}, Sets s g a x →
      Sets t g b y → ¬ Comes b a x := by
    rintro a b x y s t ⟨rfl, hg⟩ ⟨rfl, hg'⟩ hlater
    have hmono := lastGeneration_mono hlater
    rw [after_concat] at hmono
    have hnext : ((after a).step (.schedule s.id s.due)).presence.lastGeneration =
        (after a).presence.lastGeneration + 1 :=
      (after a).presence.lastGeneration_schedule s.id s.due
    omega
  have hpast := hcomes.same hcomes' (hnot h h') (hnot h' h)
  subst hpast
  obtain rfl := hcomes.event_unique hcomes'
  obtain ⟨hid, hdue⟩ := schedule_inj (h.1.symm.trans h'.1)
  refine ⟨rfl, ?_⟩
  obtain ⟨id, due⟩ := timer
  obtain ⟨id', due'⟩ := timer'
  obtain rfl : id = id' := hid
  obtain rfl : due = due' := hdue
  rfl

/-- What is spent stays spent. -/
theorem spent_step (h : w.presence.Spent g) (e : Beat Hook) : (w.step e).presence.Spent g :=
  presence_invariant (P := Presence.Spent g) (fun _ d hp => Presence.spent_perform hp d) e h

/-- A generation that is retired is spent. -/
theorem spent_of_quits {start : List (Beat Hook)} {b : Beat Hook} (hset : Sets timer g start b)
    (hlater : Comes past start b) (hquits : Quits timer.id g past e) :
    (after (past ++ [e])).presence.Spent g := by
  have htimely := timely_after past
  have hgiven : g ≤ (after past).presence.lastGeneration := by
    have hmono := lastGeneration_mono hlater
    obtain ⟨rfl, rfl⟩ := hset
    rw [after_concat] at hmono
    have hnext := (after start).presence.lastGeneration_schedule timer.id timer.due
    exact Nat.le_trans (Nat.le_of_eq hnext.symm) hmono
  rw [after_concat]
  by_cases hpending : (after past).presence.pending[timer.id]? = some g
  · rw [presence_step]
    cases e with
    | deed d whole => exact htimely.spent_of_retires hpending hquits
    | strike id generation =>
      obtain ⟨rfl, rfl⟩ := hquits
      exact htimely.spent_of_retires hpending (.fires hpending)
    | settle index => exact hquits.elim
  · -- It is pending for no other id either, for only one schedule gave it.
    refine spent_step ⟨hgiven, fun x hx => ?_⟩ e
    obtain ⟨due, htimer⟩ := (htimely.inStep x g).mp hx
    obtain ⟨_, _, ⟨hcomes, _⟩, hset'⟩ := (timers_iff past ⟨x, due⟩ g).mp htimer
    obtain ⟨-, rfl⟩ := hset.unique hlater hcomes hset'
    exact hpending hx

theorem spent_mono (h : es <+: es') (hspent : (after es).presence.Spent g) :
    (after es').presence.Spent g :=
  after_mono (P := fun w => w.presence.Spent g) (fun _ e hp => spent_step hp e) h hspent

/-! ### Open firings -/

/-- The generations of the open firings. -/
def generations (w : Workings Hook) : List Nat := w.opened.map (·.generation)

/-- No two open firings have one generation, and each has one that is spent. -/
structure Distinct (w : Workings Hook) : Prop where
  nodup : w.generations.Nodup
  spent : ∀ g ∈ w.generations, w.presence.Spent g

/-- What an event does to the open firings. -/
inductive Turns (w : Workings Hook) : Beat Hook → List Nat → Prop
  | keep (e : Beat Hook) : Turns w e w.generations
  | opens {id : ContextId} {g : Nat} (pending : w.presence.pending[id]? = some g) :
      Turns w (.strike id g) (w.generations ++ [g])
  | closes (index : Nat) : Turns w (.settle index) (w.generations.eraseIdx index)

theorem pending_of_found {firing : Firing Hook}
    (h : (w.presence.beginFiring id g).1 = some firing) : w.presence.pending[id]? = some g := by
  by_contra hne
  rw [Presence.beginFiring_of_ne hne] at h
  cases h

theorem turns (w : Workings Hook) (e : Beat Hook) : Turns w e (w.step e).generations := by
  cases e with
  | deed d whole => exact .keep _
  | strike id g =>
    have hfound : ∀ firing, (w.presence.beginFiring id g).1 = some firing →
        w.presence.pending[id]? = some g := fun _ h => pending_of_found h
    unfold step
    dsimp only
    generalize w.presence.beginFiring id g = begun at hfound ⊢
    obtain ⟨found, presence⟩ := begun
    cases found with
    | none => exact .keep _
    | some firing =>
      have happend : Turns w (.strike id g) (w.generations ++ [g]) := .opens (hfound firing rfl)
      simpa [generations] using happend
  | settle index =>
    unfold step
    dsimp only
    split
    next o h =>
      have herase : Turns w (.settle index) (w.generations.eraseIdx index) := .closes index
      rwa [generations, List.eraseIdx_map] at herase
    next => exact .keep _

theorem spent_strike (htimely : w.presence.Timely) (hpending : w.presence.pending[id]? = some g) :
    (w.step (.strike id g)).presence.Spent g := by
  rw [presence_step]
  exact htimely.spent_of_retires hpending (.fires hpending)

theorem distinct_step (htimely : w.presence.Timely) (h : Distinct w) (e : Beat Hook) :
    Distinct (w.step e) := by
  have hspent : ∀ g ∈ w.generations, (w.step e).presence.Spent g :=
    fun g hg => spent_step (h.spent g hg) e
  have hturns := w.turns e
  suffices hboth : (w.step e).generations.Nodup ∧
      ∀ g ∈ (w.step e).generations, (w.step e).presence.Spent g from ⟨hboth.1, hboth.2⟩
  generalize (w.step e).generations = generations at hturns
  cases hturns with
  | keep _ => exact ⟨h.nodup, hspent⟩
  | @opens id g hpending =>
    have hnew : g ∉ w.generations := fun hg => (h.spent g hg).2 id hpending
    refine ⟨?_, fun x hx => ?_⟩
    · rw [List.nodup_append_comm]
      exact List.nodup_cons.mpr ⟨hnew, h.nodup⟩
    · rcases List.mem_append.mp hx with hold | hx
      · exact hspent x hold
      · obtain rfl := List.mem_singleton.mp hx
        exact spent_strike htimely hpending
  | closes index =>
    have hfewer := List.eraseIdx_sublist w.generations index
    exact ⟨h.nodup.sublist hfewer, fun g hg => hspent g (hfewer.subset hg)⟩

theorem distinct_after (es : List (Beat Hook)) : Distinct (after es) := by
  have hboth : (after es).presence.Timely ∧ Distinct (after es) := by
    refine after_mono (P := fun w => w.presence.Timely ∧ Distinct w) ?_ (List.nil_prefix (l := es))
      ⟨Presence.timely_empty, List.nodup_nil, nofun⟩
    rintro w e ⟨htimely, hdistinct⟩
    exact ⟨presence_invariant (fun _ d hp => hp.perform d) e htimely,
      distinct_step htimely hdistinct e⟩
  exact hboth.2

/-- No firing of the generation is open, and none will be opened. -/
def Over (g : Nat) (w : Workings Hook) : Prop := w.presence.Spent g ∧ g ∉ w.generations

theorem over_step (h : Over g w) (e : Beat Hook) : Over g (w.step e) := by
  refine ⟨spent_step h.1 e, fun hg => ?_⟩
  have hturns := w.turns e
  generalize (w.step e).generations = generations at hturns hg
  cases hturns with
  | keep _ => exact h.2 hg
  | opens hpending =>
    rcases List.mem_append.mp hg with hold | hnew
    · exact h.2 hold
    · obtain rfl := List.mem_singleton.mp hnew
      exact h.1.2 _ hpending
  | closes index => exact h.2 ((List.eraseIdx_sublist w.generations index).subset hg)

theorem over_settle {index : Nat} {o : Opened Hook} (h : Distinct w)
    (hat : w.opened[index]? = some o) : Over o.generation (w.step (.settle index)) := by
  have hget : w.generations[index]? = some o.generation := by
    rw [generations, List.getElem?_map, hat]
    rfl
  have hlt : index < w.generations.length := (List.getElem?_eq_some_iff.mp hget).1
  refine ⟨spent_step (h.spent _ (List.mem_of_getElem? hget)) _, fun hg => ?_⟩
  have herase : (w.step (.settle index)).generations = w.generations.eraseIdx index := by
    simp only [step, hat, generations, List.eraseIdx_map]
  rw [herase] at hg
  obtain ⟨other, hne, hother⟩ := List.mem_eraseIdx_iff_getElem?.mp hg
  exact hne ((List.getElem?_inj hlt h.nodup).mp (hget.trans hother.symm)).symm

/-- Hooks run for a generation at one moment at most. -/
theorem Opens.unique {past' : List (Beat Hook)} (h : Opens es past g) (h' : Opens es past' g) :
    past = past' := by
  have hnot : ∀ {a b : List (Beat Hook)} {x y : ContextId}, Comes b a (.strike x g) →
      (after a).presence.pending[x]? = some g → (after b).presence.pending[y]? ≠ some g := by
    intro a b x y hlater hpending
    have hspent : (after (a ++ [.strike x g])).presence.Spent g := by
      rw [after_concat]
      exact spent_strike (timely_after a) hpending
    exact (spent_mono hlater hspent).2 y
  obtain ⟨x, hcomes, hfound⟩ := h
  obtain ⟨y, hcomes', hfound'⟩ := h'
  obtain ⟨_, hfound⟩ := Option.isSome_iff_exists.mp hfound
  obtain ⟨_, hfound'⟩ := Option.isSome_iff_exists.mp hfound'
  have hpending := pending_of_found hfound
  have hpending' := pending_of_found hfound'
  exact hcomes.same hcomes' (fun hlater => hnot hlater hpending hpending')
    fun hlater => hnot hlater hpending' hpending

/-- A firing of a generation comes to its second half at one moment at most. -/
theorem Closes.unique {past' : List (Beat Hook)} (h : Closes es past g)
    (h' : Closes es past' g) : past = past' := by
  have hnot : ∀ {a b : List (Beat Hook)} {i j : Nat} {o o' : Opened Hook},
      Comes b a (.settle i) → (after a).opened[i]? = some o → (after b).opened[j]? = some o' →
      o.generation ≠ o'.generation := by
    intro a b i j o o' hlater hat hat' hsame
    have hover : Over o.generation (after (a ++ [.settle i])) := by
      rw [after_concat]
      exact over_settle (distinct_after a) hat
    have hlasts := after_mono (P := Over o.generation) (fun _ e h => over_step h e) hlater hover
    refine hlasts.2 ?_
    rw [hsame]
    exact List.mem_map_of_mem (List.mem_of_getElem? hat')
  obtain ⟨i, o, hcomes, hat, rfl⟩ := h
  obtain ⟨j, o', hcomes', hat', hsame⟩ := h'
  exact hcomes.same hcomes' (fun hlater => hnot hlater hat hat' hsame.symm)
    fun hlater => hnot hlater hat' hat hsame

theorem Removes.unique {past' : List (Beat Hook)} {id' : ContextId} (h : Removes es past id g)
    (h' : Removes es past' id' g) : past = past' ∧ id = id' := by
  obtain ⟨i, firing, hcomes, hat, _⟩ := h
  obtain ⟨j, firing', hcomes', hat', _⟩ := h'
  have hcloses : Closes es past g := ⟨i, _, hcomes, hat, rfl⟩
  have hpast := hcloses.unique ⟨j, _, hcomes', hat', rfl⟩
  subst hpast
  cases hcomes.event_unique hcomes'
  cases hat.symm.trans hat'
  exact ⟨rfl, rfl⟩

/-! ### The engine's courses -/

theorem foldl_deeds {deeds : List (Deed Hook)} (h : ∀ d ∈ deeds, d.Whole) (w : Workings Hook) :
    ∃ es : List (Beat Hook), es.foldl step w = {w with presence := w.presence.after deeds} := by
  induction deeds generalizing w with
  | nil => exact ⟨[], rfl⟩
  | cons d rest ih =>
    have hd := h d List.mem_cons_self
    obtain ⟨es, hes⟩ := ih (fun x hx => h x (List.mem_cons_of_mem d hx)) (w.step (.deed d hd))
    exact ⟨.deed d hd :: es, hes⟩

/-- A firing of the engine is a call, the deeds of the hooks, and a second half. -/
theorem foldl_firing (e : Engine) (id : ContextId) (g : Nat) :
    ∃ es : List (Beat TeardownHook), es.foldl step ⟨e.presence, []⟩ =
      ⟨(e.fire id g).2.presence, []⟩ := by
  rw [Engine.presence_fire]
  unfold Engine.firingDeeds
  split
  next p h =>
    refine ⟨[.strike id g], ?_⟩
    simp [step, h, Presence.after, Presence.perform]
  next firing p h =>
    have hwhole : ∀ d ∈ (e.withPresence p).allDeeds
        (firing.context.hooks.flatMap TeardownHook.operations), d.Whole :=
      Engine.forall_allDeeds (fun f op _ => f.whole_deeds op) _
    obtain ⟨es, hes⟩ := foldl_deeds hwhole ⟨p, [⟨id, g, firing⟩]⟩
    have hbegin : (⟨e.presence, []⟩ : Workings TeardownHook).step (.strike id g) =
        ⟨p, [⟨id, g, firing⟩]⟩ := by simp only [step, h, List.nil_append]
    refine ⟨.strike id g :: (es ++ [.settle 0]), ?_⟩
    rw [List.foldl_cons, hbegin, List.foldl_append, hes]
    have hp : e.presence.perform (.beginFiring id g) = p := by
      simp only [Presence.perform, h]
    show (⟨Presence.finishFiring _ id firing, []⟩ : Workings TeardownHook) = ⟨_, []⟩
    rw [show ∀ rest, e.presence.after (.beginFiring id g :: rest) = p.after rest from
      fun rest => congrArg (·.after rest) hp, Presence.after_append]
    rfl

/-- Every course of the engine is a history with no firing left open. -/
theorem of_course {documents : Assembler} {files : Files} {cleanupDelay : Nat} {e : Engine}
    {deeds : List (Deed TeardownHook)}
    (h : Engine.Course (Engine.start documents files cleanupDelay) deeds e) :
    ∃ es, after es = ⟨e.presence, []⟩ := by
  have hmore : ∀ {f : Engine} {p : Presence TeardownHook}, (∃ es, after es = ⟨f.presence, []⟩) →
      (∃ es : List (Beat TeardownHook), es.foldl step ⟨f.presence, []⟩ = ⟨p, []⟩) →
      ∃ es, after es = ⟨p, []⟩ := by
    rintro f p ⟨es, hes⟩ ⟨more, hmore⟩
    refine ⟨es ++ more, ?_⟩
    rw [after, List.foldl_append]
    show more.foldl step (after es) = _
    rw [hes, hmore]
  induction h with
  | rest => exact ⟨[], rfl⟩
  | @operation _ f op _ ih =>
    rw [Engine.presence_apply]
    exact hmore ih (foldl_deeds (f.whole_deeds op) _)
  | @fire _ f id g _ ih => exact hmore ih (foldl_firing f id g)
  | @firstLoad _ f call scope c _ ih =>
    have hwhole : ∀ d ∈ [Deed.register c], d.Whole := by
      intro d hd
      obtain rfl := List.mem_singleton.mp hd
      trivial
    exact hmore ih (foldl_deeds hwhole ⟨f.presence, []⟩)
  | aside f' same _ ih =>
    rw [same]
    exact ih

/-- **Timers that were replaced or cancelled are inert.** In every history, in which any
timer may call at any moment: the call of a timer whose generation is not the pending
one of its id changes nothing, in the engine too, and runs no hook. The timers that sleep,
and the pending cleanups, are those of the tasks that are alive, set and neither aborted
nor gone off since, one for one, and no id has two. A generation that was retired — its cleanup replaced, taken
back or fired, or its id registered or unregistered — is never pending again, for any
id. No two schedules share a generation, and for each of them hooks run at one moment at
most, and a context is removed at one moment at most. -/
theorem timers_inert (es : List (Beat Hook)) :
    (∀ id g, (after es).presence.pending[id]? ≠ some g →
      after (es ++ [.strike id g]) = after es) ∧
    (∀ (e : Engine) id g, e.presence.pending[id]? ≠ some g → e.fire id g = ([], e)) ∧
    (∀ timer g, (after es).presence.timers[g]? = some timer ↔ Alive es timer g) ∧
    (∀ (id : ContextId) (g : Nat),
      (after es).presence.pending[id]? = some g ↔ ∃ due, Alive es ⟨id, due⟩ g) ∧
    (∀ timer timer' g g', Alive es timer g → Alive es timer' g' →
      ((timer.id = timer'.id ↔ g = g') ∧ (g = g' → timer = timer'))) ∧
    (∀ start b timer g past e, Comes es start b → Sets timer g start b → Comes es past e →
      Comes past start b → Quits timer.id g past e →
      ∀ now, past ++ [e] <+: now → now <+: es →
        ∀ id : ContextId, (after now).presence.pending[id]? ≠ some g) ∧
    (∀ start start' b b' timer timer' g, Comes es start b → Sets timer g start b →
      Comes es start' b' → Sets timer' g start' b' → start = start') ∧
    (∀ g past past', Opens es past g → Opens es past' g → past = past') ∧
    ∀ g past past' id id', Removes es past id g → Removes es past' id' g →
      past = past' ∧ id = id' := by
  have htimely := timely_after es
  have hpending : ∀ {id g due}, Alive es ⟨id, due⟩ g → (after es).presence.pending[id]? = some g :=
    fun h => (htimely.inStep _ _).mpr ⟨_, (timers_iff es _ _).mpr h⟩
  refine ⟨?_, ?_, timers_iff es, fun id g => ?_, ?_, ?_, ?_, fun g past past' => Opens.unique,
    fun g past past' id id' => Removes.unique⟩
  · intro id g hne
    rw [after_concat, step_strike_of_ne hne]
  · intro e id g hne
    unfold Engine.fire
    rw [Presence.beginFiring_of_ne hne]
    rfl
  · rw [htimely.inStep]
    exact exists_congr fun due => timers_iff es ⟨id, due⟩ g
  · rintro ⟨id, due⟩ ⟨id', due'⟩ g g' halive halive'
    have hone : g = g' → (⟨id, due⟩ : Timer) = ⟨id', due'⟩ := by
      rintro rfl
      exact Option.some.inj (((timers_iff es _ _).mpr halive).symm.trans
        ((timers_iff es _ _).mpr halive'))
    refine ⟨⟨?_, fun hsame => congrArg Timer.id (hone hsame)⟩, hone⟩
    rintro rfl
    exact Option.some.inj ((hpending halive).symm.trans (hpending halive'))
  · intro start b timer g past e _ hset _ hlater hquits now hnow _
    exact (spent_mono hnow (spent_of_quits hset hlater hquits)).2
  · intro start start' b b' timer timer' g hcomes hset hcomes' hset'
    exact (hset.unique hcomes hcomes' hset').1

/-- A cleanup is replaced by an earlier one; the timer that was replaced calls although it
was aborted, and the other one calls twice. -/
def replacing : List (Beat Unit) :=
  [.deed (.register {id := "a", route := "/", session := "s"}) trivial, .schedule "a" 10,
    .schedule "a" 5, .strike "a" 2, .strike "a" 3, .strike "a" 3, .settle 0]

/-- The replaced timer does nothing, and its generation does not come back; the other one
runs the hooks and removes the context, once. -/
theorem timers_inert_replacing :
    after (replacing.take 3 ++ [.strike "a" 2]) = after (replacing.take 3) ∧
      (after (replacing.take 3)).presence.pending["a"]? = some 3 ∧
      Sets ⟨"a", 10⟩ 2 (replacing.take 1) (.schedule "a" 10) ∧
      Quits "a" 2 (replacing.take 2) (.schedule "a" 5) ∧
      (∀ id : ContextId, (after replacing).presence.pending[id]? ≠ some 2) ∧
      Opens replacing (replacing.take 4) 3 ∧
      (∀ past, Opens replacing past 3 → past = replacing.take 4) ∧
      Removes replacing (replacing.take 6) "a" 3 ∧
      (∀ past id, Removes replacing past id 3 → past = replacing.take 6 ∧ id = "a") := by
  have hset : Sets ⟨"a", 10⟩ 2 (replacing.take 1) (.schedule "a" 10) := ⟨rfl, rfl⟩
  have hquits : Quits "a" 2 (replacing.take 2) (.schedule "a" 5) := .schedule 5
  have hopens : Opens replacing (replacing.take 4) 3 := ⟨"a", ⟨_, rfl⟩, rfl⟩
  have hremoves : Removes replacing (replacing.take 6) "a" 3 :=
    ⟨0, _, ⟨_, rfl⟩, rfl, by decide, by decide⟩
  obtain ⟨hinert, _⟩ := timers_inert (replacing.take 3)
  obtain ⟨_, _, _, _, _, hgone, _, hopened, hremoved⟩ := timers_inert replacing
  refine ⟨hinert "a" 2 (by decide), rfl, hset, hquits, ?_, hopens,
    fun past h => hopened 3 _ _ h hopens, hremoves, fun past id h => hremoved 3 _ _ _ _ h hremoves⟩
  exact hgone (replacing.take 1) _ ⟨"a", 10⟩ 2 (replacing.take 2) _ ⟨_, rfl⟩ hset ⟨_, rfl⟩
    ⟨_, rfl⟩ hquits replacing ⟨_, rfl⟩ (List.prefix_refl _)

end Workings
end SharedViews

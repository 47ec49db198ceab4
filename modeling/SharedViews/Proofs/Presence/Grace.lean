import SharedViews.Proofs.Presence.Clocked

/-! The grace period.

A firing finds its id live exactly if the id was live when the timer was set
(`live_since`), and then tears the context down and leaves nothing of it (`fire_of_live`).
What first ends the sleep of a timer is either an event that resets the id, or its own
firing, at the very moment it is due (`fires_of_quits`). So what is reclaimed, and when,
can be told from the schedules (`awaits_of_reclaims`, `reclaims_of_awaits`), and so can
what is pending (`pending_iff_outstanding`). -/
namespace SharedViews
open Std

/-- The event registers or unregisters the id, or sets or takes back its cleanup. -/
def Occasion.Touches {Hook : Type} (id : ContextId) : Occasion Hook → Prop
  | .deed (.register c) _ => c.id = id
  | .deed (.unregister x) _ | .deed (.cancel x) _ | .schedule x _ => x = id
  | _ => False

/-- Nothing is left of the id. -/
structure Presence.Gone {Hook : Type} (p : Presence Hook) (id : ContextId) : Prop where
  context : id ∉ p.contexts
  session : id ∉ p.sessions
  client : id ∉ p.clients
  registration : id ∉ p.registrations
  pending : id ∉ p.pending
  scopes : ∀ scope, ¬ p.scopes.Belongs id scope

namespace Presence
variable {Hook : Type} {p : Presence Hook} {id x : ContextId} {d : Deed Hook} {g : Nat}
  {deeds : List (Deed Hook)}

/-! ### Who is live -/

theorem live_of_perform (hp : Registered p) (h : id ∈ (p.perform d).contexts) :
    id ∈ p.contexts ∨ ∃ c, d = .register c ∧ c.id = id := by
  rw [← registered_perform hp d id, ExtTreeMap.mem_iff_isSome_getElem?] at h
  rcases p.registration_perform id d with hsame | ⟨_, hregister⟩ | ⟨hnone, _⟩
  · rw [hsame, ← ExtTreeMap.mem_iff_isSome_getElem?, hp id] at h
    exact .inl h
  · exact .inr hregister
  · rw [hnone] at h
    cases h

theorem live_perform (hp : Registered p) (h : id ∈ p.contexts) (hd : ¬ p.Removes id d) :
    id ∈ (p.perform d).contexts := by
  rw [← registered_perform hp d id, ExtTreeMap.mem_iff_isSome_getElem?]
  rcases p.registration_perform id d with hsame | ⟨hnew, _⟩ | ⟨_, hremoves⟩
  · rwa [hsame, ← ExtTreeMap.mem_iff_isSome_getElem?, hp id]
  · rw [hnew]
    rfl
  · exact absurd hremoves hd

/-- Deeds that neither register an id nor remove it leave it live or not live. -/
theorem live_after_iff (hp : Registered p) (hregister : ∀ c, .register c ∈ deeds → c.id ≠ id)
    (hunregister : .unregister id ∉ deeds) (hfinish : ∀ firing, .finishFiring id firing ∉ deeds) :
    id ∈ (p.after deeds).contexts ↔ id ∈ p.contexts := by
  induction deeds generalizing p with
  | nil => rfl
  | cons d rest ih =>
    have hrest := ih (registered_perform hp d)
      (fun c hc => hregister c (List.mem_cons_of_mem d hc))
      (fun h => hunregister (List.mem_cons_of_mem d h))
      (fun firing h => hfinish firing (List.mem_cons_of_mem d h))
    refine hrest.trans ⟨fun h => ?_, fun h => live_perform hp h ?_⟩
    · rcases live_of_perform hp h with hlive | ⟨c, rfl, hid⟩
      · exact hlive
      · exact absurd hid (hregister c List.mem_cons_self)
    · rintro (rfl | ⟨firing, rfl, _⟩)
      · exact hunregister List.mem_cons_self
      · exact hfinish firing List.mem_cons_self

/-! ### Tearing down -/

theorem gone_unregister (hp : p.scopes.Sound) (h : id ∈ p.contexts) :
    (p.unregister id).Gone id := by
  have hs := standing_unregister h id
  rw [if_pos rfl] at hs
  have hnone : ∀ {V : Type} {m : ExtTreeMap ContextId V}, m[id]? = none → id ∉ m := by
    intro V m hm hmem
    rw [ExtTreeMap.mem_iff_isSome_getElem?, hm] at hmem
    cases hmem
  refine ⟨?_, ?_, hnone (congrArg Standing.client hs), hnone (congrArg Standing.registration hs),
    hnone (congrArg Standing.pending hs), fun scope => ?_⟩
  · rw [contexts_unregister h]
    simp
  · have hsessions : (p.unregister id).sessions = p.sessions.erase id := by
      rw [unregister_eq h]
      exact (alike_cancel _ id).sessions
    rw [hsessions]
    simp
  · rw [scopes_unregister h, hp.belongs_removeAll]
    exact fun hboth => hboth.1 rfl

/-- The firing of a live context unregisters it. -/
theorem fire_of_live {c : Context Hook} (hpending : p.pending[id]? = some g)
    (hc : p.contexts[id]? = some c) :
    p.fire id g = (some ⟨c, p.registrations[id]?⟩, (p.cancel id).unregister id) := by
  have hidle : ¬ (p.cancel id).isPending id = true := by
    rw [not_isPending_iff, pending_cancel, if_pos rfl]
  have hsame : (p.cancel id).registrations[id]? = p.registrations[id]? := by
    rw [(p.alike_cancel id).registrations]
  unfold fire
  rw [beginFiring_eq hpending hc]
  exact congrArg (Prod.mk _) (finishFiring_of_eq hsame hidle)

/-- The firing for an id that is not live takes its pending entry and nothing else. -/
theorem fire_of_not_live (hpending : p.pending[id]? = some g) (h : id ∉ p.contexts) :
    p.fire id g = (none, p.cancel id) := by
  unfold fire beginFiring
  rw [if_pos hpending, ExtTreeMap.getElem?_eq_none h]
  rfl

/-- The ids with a cleanup pending are listed in order, each once. -/
theorem pendingIds_sorted (p : Presence Hook) :
    p.pendingIds.Pairwise fun a b => compare a b = .lt := ExtTreeMap.ordered_keys

theorem mem_pendingIds : id ∈ p.pendingIds ↔ ∃ g, p.pending[id]? = some g := by
  rw [pendingIds, ExtTreeMap.mem_keys, ExtTreeMap.mem_iff_isSome_getElem?,
    Option.isSome_iff_exists]

end Presence

namespace Clocked
variable {Hook : Type} {es past later begun : List (Occasion Hook)} {e : Occasion Hook}
  {id : ContextId} {g delay : Nat}

/-- The timer of the id fires after `past` and tears the context down: its hooks run, and
it is live no more. -/
def Reclaims (es past : List (Occasion Hook)) (id : ContextId) : Prop :=
  ∃ g context, Comes es past (.fire g) ∧ (after past).tornDown? (.fire g) = some (id, context) ∧
    (after past).presence.contexts[id]? = some context ∧
    id ∉ (after (past ++ [.fire g])).presence.contexts

/-- A cleanup of the id, live then, was scheduled for that time, and whatever touched the id
after the schedule came after a firing of the id that came after the schedule. -/
def Awaits (es : List (Occasion Hook)) (id : ContextId) (time : Nat) : Prop :=
  ∃ begun delay, Comes es begun (.schedule id delay) ∧ (after begun).now + delay = time ∧
    id ∈ (after begun).presence.contexts ∧
    ∀ later e, Comes es later e → Comes later begun (.schedule id delay) → e.Touches id →
      ∃ past, Comes past begun (.schedule id delay) ∧ Fires later past id

/-- The latest event that reset the id was a schedule, and it has not come due: its time is
to come, or it is now and no timer of the id has fired since. -/
def Outstanding (es : List (Occasion Hook)) (id : ContextId) : Prop :=
  ∃ begun delay, SinceMoment (Resets id) es begun (.schedule id delay) ∧
    ((after es).now < (after begun).now + delay ∨
      ((after es).now = (after begun).now + delay ∧
        ∀ past, Comes past begun (.schedule id delay) → ¬ Fires es past id))

/-! ### What touches an id -/

theorem Resets.touches (h : Resets id past e) : e.Touches id := by
  cases e with
  | deed d plain =>
    have hretires : (after past).presence.Retires id d := h
    cases hretires with
    | schedule due => exact plain.elim
    | cancel => exact rfl
    | register c own => exact own
    | unregister live => exact rfl
    | fires pending => exact plain.elim
  | schedule x delay => exact h
  | fire k => exact h.elim
  | wait ms => exact h.elim

/-- What touches a live id resets it. -/
theorem resets_of_touches (h : e.Touches id) (hlive : id ∈ (after past).presence.contexts) :
    Resets id past e := by
  cases e with
  | deed d plain =>
    cases d with
    | register c => exact .register c h
    | unregister x =>
      obtain rfl : x = id := h
      exact .unregister hlive
    | cancel x =>
      obtain rfl : x = id := h
      exact .cancel
    | _ => exact h.elim
  | schedule x delay => exact h
  | fire k => exact h.elim
  | wait ms => exact h.elim

/-! ### From the schedule on -/

/-- While nothing has quit it, the timer that was set sleeps. -/
theorem sleeps_since (h : SinceMoment (Quits id g) es begun (.schedule id delay))
    (hg : g = (after begun).presence.lastGeneration + 1) :
    (after es).presence.timers[g]? = some ⟨id, (after begun).now + delay⟩ :=
  (timers_iff es ⟨id, (after begun).now + delay⟩ g).mpr ⟨begun, _, h, delay, rfl, rfl, hg⟩

/-- A timer that fires does so when it is due. -/
theorem fires_at {due : Nat} (hs : (after past).presence.timers[g]? = some ⟨id, due⟩)
    (h : Fires es past id) : Comes es past (.fire g) ∧ (after past).now = due := by
  obtain ⟨k, ⟨_, due'⟩, hcomes, hdue, rfl⟩ := h
  obtain ⟨hk, hle⟩ := due?_eq_some_iff.mp hdue
  have htimely := timely_after past
  have hpending := (htimely.inStep _ g).mpr ⟨due, hs⟩
  have hpending' := (htimely.inStep _ k).mpr ⟨due', hk⟩
  obtain rfl := Option.some.inj (hpending'.symm.trans hpending)
  cases hk.symm.trans hs
  exact ⟨hcomes, Nat.le_antisymm (now_le_due hs) hle⟩

/-- A firing ends the sleep of a timer that was set for the time it is. -/
theorem fires_from (h : Fires es past id) :
    ∃ g begun delay, Comes es past (.fire g) ∧
      SinceMoment (Quits id g) past begun (.schedule id delay) ∧
      g = (after begun).presence.lastGeneration + 1 ∧
      (after begun).now + delay = (after past).now := by
  have hfires := h
  obtain ⟨g, timer, hcomes, hdue, rfl⟩ := h
  obtain ⟨hg, _⟩ := due?_eq_some_iff.mp hdue
  obtain ⟨begun, _, hsince, delay, rfl, hdue', hgeneration⟩ := (timers_iff past timer g).mp hg
  refine ⟨g, begun, delay, hcomes, hsince, hgeneration, ?_⟩
  rw [← hdue']
  exact (fires_at hg hfires).2.symm

/-- No firing of the id comes while a timer of it goes on sleeping. -/
theorem not_fires_since (h : SinceMoment (Quits id g) later begun (.schedule id delay))
    (hg : g = (after begun).presence.lastGeneration + 1)
    (hlater : Comes past begun (.schedule id delay)) : ¬ Fires later past id := by
  intro hfires
  have hpast : past <+: later := by
    obtain ⟨_, _, hcomes, _⟩ := hfires
    exact hcomes.isPrefix
  have hs := sleeps_since (h.at_moment hlater hpast) hg
  obtain ⟨hcomes', hnow⟩ := fires_at hs hfires
  refine h.2 past _ hcomes' hlater (.inr ⟨rfl, ?_⟩)
  rw [due?_eq_some_iff.mpr ⟨hs, Nat.le_of_eq hnow.symm⟩]
  rfl

/-- While the timer sleeps, its id is live or not as it was when the timer was set. -/
theorem live_since (h : SinceMoment (Quits id g) es begun (.schedule id delay))
    (hg : g = (after begun).presence.lastGeneration + 1) :
    id ∈ (after es).presence.contexts ↔ id ∈ (after begun).presence.contexts := by
  induction es using List.reverseRecOn with
  | nil => exact absurd h.1 not_comes_nil
  | append_singleton es e ih =>
    rw [after_concat, presence_step]
    have hregistered := registered_after es
    rcases sinceMoment_concat.mp h with ⟨rfl, rfl⟩ | ⟨hold, hstays⟩
    · exact Presence.live_after_iff hregistered (by simp [deeds]) (by simp [deeds])
        (by simp [deeds])
    · refine Iff.trans ?_ (ih hold)
      cases e with
      | deed d plain =>
        by_cases hlive : id ∈ (after es).presence.contexts
        · have hkept : ¬ (after es).presence.Retires id d := fun hr => hstays (.inl hr)
          refine Presence.live_after_iff hregistered ?_ ?_ ?_
          · intro c hc hid
            obtain rfl := List.mem_singleton.mp hc
            exact hkept (.register c hid)
          · intro hmem
            obtain rfl := List.mem_singleton.mp hmem
            exact hkept (.unregister hlive)
          · intro firing hmem
            obtain rfl := List.mem_singleton.mp hmem
            exact plain
        · refine iff_of_false (fun h => ?_) hlive
          rcases Presence.live_of_perform hregistered h with hbefore | ⟨c, rfl, hid⟩
          · exact hlive hbefore
          · exact hstays (.inl (.register c hid))
      | schedule x delay =>
        exact Presence.live_after_iff hregistered (by simp [deeds]) (by simp [deeds])
          (by simp [deeds])
      | fire k =>
        cases hdue : (after es).due? k with
        | none => simp [deeds, hdue, Presence.after]
        | some timer =>
          -- The timer that fires is another id's, or it would be the one that sleeps.
          have hne : timer.id ≠ id := fun hid =>
            not_fires_since h hg hold.1 ⟨k, timer, comes_concat es _, hdue, hid⟩
          refine Presence.live_after_iff hregistered ?_ ?_ ?_
          · simp [deeds, hdue, firingDeeds]
          · simp [deeds, hdue, firingDeeds]
          · simp [deeds, hdue, firingDeeds, hne]
      | wait ms =>
        exact Presence.live_after_iff hregistered (by simp [deeds]) (by simp [deeds])
          (by simp [deeds])

/-- What quits a timer that sleeps and does not reset its id is its firing, then due. -/
theorem fires_of_quits (h : SinceMoment (Quits id g) past begun (.schedule id delay))
    (hg : g = (after begun).presence.lastGeneration + 1) (hcomes : Comes es past e)
    (hquits : Quits id g past e) (hresets : ¬ Resets id past e) :
    Comes es past (.fire g) ∧ Fires es past id ∧
      (after past).due? g = some ⟨id, (after past).now⟩ ∧
      (after past).now = (after begun).now + delay := by
  obtain ⟨rfl, hsome⟩ := hquits.resolve_left hresets
  have hs := sleeps_since h hg
  obtain ⟨timer, hdue⟩ := Option.isSome_iff_exists.mp hsome
  obtain rfl := Option.some.inj ((due?_eq_some_iff.mp hdue).1.symm.trans hs)
  have hfires : Fires es past id := ⟨g, _, hcomes, hdue, rfl⟩
  have hnow := (fires_at hs hfires).2
  rw [← hnow] at hdue
  exact ⟨hcomes, hfires, hdue, hnow⟩

/-! ### Reclaiming -/

/-- What the firing of a timer can come to: nothing, if it is not due; if its id is not live,
its pending entry is taken and no more; else the context is torn down and unregistered. -/
inductive Fired (past : List (Occasion Hook)) (g : Nat) : Prop
  | idle (notDue : (after past).due? g = none) (quiet : (after past).tornDown? (.fire g) = none)
      (same : after (past ++ [.fire g]) = after past)
  | away (timer : Timer) (due : (after past).due? g = some timer)
      (absent : timer.id ∉ (after past).presence.contexts)
      (quiet : (after past).tornDown? (.fire g) = none)
      (left : after (past ++ [.fire g]) =
        {after past with presence := (after past).presence.cancel timer.id})
  | live (timer : Timer) (c : Context Hook) (due : (after past).due? g = some timer)
      (found : (after past).presence.contexts[timer.id]? = some c)
      (torn : (after past).tornDown? (.fire g) = some (timer.id, c))
      (left : after (past ++ [.fire g]) =
        {after past with presence := ((after past).presence.cancel timer.id).unregister timer.id})

theorem fired (past : List (Occasion Hook)) (g : Nat) : Fired past g := by
  cases hdue : (after past).due? g with
  | none =>
    refine .idle hdue ?_ ?_
    · simp only [tornDown?, hdue, Option.bind_none]
    · rw [after_concat]
      simp only [step, hdue]
  | some timer =>
    have hpending := ((timely_after past).inStep timer.id g).mpr
      ⟨timer.due, (due?_eq_some_iff.mp hdue).1⟩
    by_cases hlive : timer.id ∈ (after past).presence.contexts
    · obtain ⟨c, hc⟩ := Option.isSome_iff_exists.mp (ExtTreeMap.mem_iff_isSome_getElem?.mp hlive)
      have hfire := Presence.fire_of_live hpending hc
      refine .live timer c hdue hc ?_ ?_
      · simp only [tornDown?, hdue, Option.bind_some, hfire, Option.map_some]
      · rw [after_concat]
        simp only [step, hdue, hfire]
    · have hfire := Presence.fire_of_not_live hpending hlive
      refine .away timer hdue hlive ?_ ?_
      · simp only [tornDown?, hdue, Option.bind_some, hfire, Option.map_none]
      · rw [after_concat]
        simp only [step, hdue, hfire]

/-- The hooks that a timer runs are those of the context that it removes, of which nothing
is left. -/
theorem gone_of_tornDown {c : Context Hook}
    (h : (after past).tornDown? (.fire g) = some (id, c)) :
    (after past).presence.contexts[id]? = some c ∧ after (past ++ [.fire g]) =
        {after past with presence := ((after past).presence.cancel id).unregister id} ∧
      (after (past ++ [.fire g])).presence.Gone id := by
  cases fired past g with
  | idle _ quiet _ => cases quiet.symm.trans h
  | away _ _ _ quiet _ => cases quiet.symm.trans h
  | live timer found due hc torn left =>
    cases torn.symm.trans h
    have halike := (after past).presence.alike_cancel timer.id
    refine ⟨hc, left, ?_⟩
    rw [left]
    refine Presence.gone_unregister ?_ ?_
    · rw [halike.scopes]
      exact sound_after past
    · rw [halike.contexts]
      exact Presence.mem_contexts_of_some hc

theorem tornDown_iff {c : Context Hook} : (after past).tornDown? (.fire g) = some (id, c) ↔
    (after past).presence.contexts[id]? = some c ∧
      id ∉ (after (past ++ [.fire g])).presence.contexts := by
  refine ⟨fun h => ⟨(gone_of_tornDown h).1, (gone_of_tornDown h).2.2.context⟩, ?_⟩
  rintro ⟨hc, hgone⟩
  have hlive := Presence.mem_contexts_of_some hc
  cases fired past g with
  | idle _ _ same =>
    rw [same] at hgone
    exact absurd hlive hgone
  | away timer _ _ _ left =>
    rw [left, ((after past).presence.alike_cancel timer.id).contexts] at hgone
    exact absurd hlive hgone
  | live timer found _ hfound torn left =>
    have halike := (after past).presence.alike_cancel timer.id
    have hmem : timer.id ∈ ((after past).presence.cancel timer.id).contexts := by
      rw [halike.contexts]
      exact Presence.mem_contexts_of_some hfound
    rw [left, Presence.contexts_unregister hmem, halike.contexts, ExtTreeMap.mem_erase] at hgone
    obtain rfl : timer.id = id := by
      by_contra hne
      exact hgone ⟨by simpa using hne, hlive⟩
    obtain rfl := Option.some.inj (hfound.symm.trans hc)
    exact torn

theorem reclaims_iff :
    Reclaims es past id ↔ Fires es past id ∧ id ∈ (after past).presence.contexts := by
  constructor
  · rintro ⟨g, c, hcomes, htorn, hc, _⟩
    have hlive := Presence.mem_contexts_of_some hc
    cases fired past g with
    | idle _ quiet _ => cases quiet.symm.trans htorn
    | away _ _ _ quiet _ => cases quiet.symm.trans htorn
    | live timer found due _ torn _ =>
      cases torn.symm.trans htorn
      exact ⟨⟨g, timer, hcomes, due, rfl⟩, hlive⟩
  · rintro ⟨⟨g, timer, hcomes, hdue, rfl⟩, hlive⟩
    cases fired past g with
    | idle notDue _ _ => cases notDue.symm.trans hdue
    | away other due absent _ _ =>
      cases due.symm.trans hdue
      exact absurd hlive absent
    | live other c due hc torn _ =>
      cases due.symm.trans hdue
      exact ⟨g, c, hcomes, torn, hc, (gone_of_tornDown torn).2.2.context⟩

/-- What is reclaimed was scheduled to be, and nothing touched it in between. -/
theorem awaits_of_reclaims (h : Reclaims es past id) : Awaits es id (after past).now := by
  obtain ⟨hfires, hlive⟩ := reclaims_iff.mp h
  obtain ⟨g, begun, delay, hpast, hsince, hg, hnow⟩ := fires_from hfires
  refine ⟨begun, delay, hsince.1.mono hpast.isPrefix, hnow, (live_since hsince hg).mp hlive, ?_⟩
  intro later e hlater hbegun htouches
  rcases hlater.order hpast with hpre | hbefore
  · refine ⟨past, hsince.1, ?_⟩
    obtain ⟨k, timer, hcomes, hdue, hid⟩ := hfires
    rcases hcomes.order hlater with hpre' | hafter
    · -- The two moments are one, and its event is the firing.
      obtain rfl := hpre.eq_of_length_le hpre'.length_le
      obtain rfl := hlater.event_unique hcomes
      exact htouches.elim
    · exact ⟨k, timer, hafter, hdue, hid⟩
  · have hlive' := (live_since (hsince.at_moment hbegun hbefore.isPrefix) hg).mpr
      ((live_since hsince hg).mp hlive)
    exact absurd (.inl (resets_of_touches htouches hlive')) (hsince.2 later e hbefore hbegun)

/-- What was scheduled to be reclaimed, and not touched since, has been reclaimed when it was
time, or it is time and a timer that fires now reclaims it. -/
theorem reclaims_or_due {time : Nat} (h : Awaits es id time) (htime : time ≤ (after es).now) :
    (∃ past, Reclaims es past id ∧ (after past).now = time) ∨
      (time = (after es).now ∧ ∃ g c, (after es).tornDown? (.fire g) = some (id, c)) := by
  obtain ⟨begun, delay, hbegun, rfl, hlive, huntouched⟩ := h
  rcases sinceMoment_or_ends (Quits id ((after begun).presence.lastGeneration + 1)) hbegun with
    hsince | ⟨past, e, hcomes, hquits, hsince⟩
  · have hs := sleeps_since hsince rfl
    have hle : (after es).now ≤ (after begun).now + delay := now_le_due hs
    refine .inr ⟨Nat.le_antisymm htime hle, (after begun).presence.lastGeneration + 1, ?_⟩
    have hdue := due?_eq_some_iff.mpr ⟨hs, htime⟩
    cases fired es ((after begun).presence.lastGeneration + 1) with
    | idle notDue _ _ => cases notDue.symm.trans hdue
    | away timer due absent _ _ =>
      cases due.symm.trans hdue
      exact absurd ((live_since hsince rfl).mpr hlive) absent
    | live timer c due _ torn _ =>
      cases due.symm.trans hdue
      exact ⟨c, torn⟩
  · by_cases hresets : Resets id past e
    · obtain ⟨between, hbetween, hfires⟩ := huntouched past e hcomes hsince.1 hresets.touches
      exact absurd hfires (not_fires_since hsince rfl hbetween)
    · obtain ⟨-, hfires, -, hnow⟩ := fires_of_quits hsince rfl hcomes hquits hresets
      exact .inl ⟨past, reclaims_iff.mpr ⟨hfires, (live_since hsince rfl).mpr hlive⟩, hnow⟩

theorem reclaims_of_awaits {time : Nat} (h : Awaits es id time) (htime : time < (after es).now) :
    ∃ past, Reclaims es past id ∧ (after past).now = time := by
  rcases reclaims_or_due h (Nat.le_of_lt htime) with hreclaims | ⟨hnow, -⟩
  · exact hreclaims
  · exact absurd hnow (Nat.ne_of_lt htime)

/-! ### Pending -/

/-- A cleanup is pending from its schedule until something quits it. -/
theorem pending_iff_since : id ∈ (after es).presence.pendingIds ↔ ∃ begun delay,
    SinceMoment (Quits id ((after begun).presence.lastGeneration + 1)) es begun (.schedule id delay) := by
  rw [Presence.mem_pendingIds]
  constructor
  · rintro ⟨g, hpending⟩
    obtain ⟨due, hs⟩ := ((timely_after es).inStep id g).mp hpending
    obtain ⟨begun, _, hsince, delay, rfl, _, rfl⟩ := (timers_iff es _ g).mp hs
    exact ⟨begun, delay, hsince⟩
  · rintro ⟨begun, delay, hsince⟩
    exact ⟨_, ((timely_after es).inStep id _).mpr ⟨_, sleeps_since hsince rfl⟩⟩

theorem pending_iff_outstanding : id ∈ (after es).presence.pendingIds ↔ Outstanding es id := by
  rw [pending_iff_since]
  constructor
  · rintro ⟨begun, delay, hsince⟩
    refine ⟨begun, delay, hsince.weaken fun _ _ h => .inl h, ?_⟩
    have hle : (after es).now ≤ (after begun).now + delay := now_le_due (sleeps_since hsince rfl)
    exact (Nat.lt_or_eq_of_le hle).imp_right fun hnow =>
      ⟨hnow, fun past hpast => not_fires_since hsince rfl hpast⟩
  · rintro ⟨begun, delay, hlatest, hdue⟩
    refine ⟨begun, delay, ?_⟩
    rcases sinceMoment_or_ends (Quits id ((after begun).presence.lastGeneration + 1))
      hlatest.1 with hsince | ⟨past, e, hcomes, hquits, hsince⟩
    · exact hsince
    · have hresets := hlatest.2 past e hcomes hsince.1
      obtain ⟨-, hfires, -, hnow⟩ := fires_of_quits hsince rfl hcomes hquits hresets
      rcases hdue with hlt | ⟨-, hnone⟩
      · have hle := now_mono hcomes.isPrefix
        omega
      · exact absurd hfires (hnone past hsince.1)

end Clocked
end SharedViews

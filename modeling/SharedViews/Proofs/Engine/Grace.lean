import SharedViews.Proofs.Engine.Timelines
import SharedViews.Proofs.Presence.Grace

/-! The grace period of an engine.

What holds of every history of presence on its clock holds of the engine's paced runs,
and timelines are such runs. -/
namespace SharedViews
namespace Clocked
open Std

/-- **The grace period, exactly.** In every history, in which timers fire when they are due
and the hooks of a firing do not call back: a timer tears a context down at some time
exactly if a cleanup was scheduled for that time while the context was live and, after
the schedule and before a timer of the id fired, the id was neither registered nor
unregistered, and no cleanup of it was set or taken back. When it is that time and this
has not been done, a timer is due that does it. The hooks that run are those of the
context that the timer removes, and nothing is left of it at that moment; to unregister
it runs none. The ids with a cleanup pending are listed in order: those whose latest
reset is a schedule that has not come due. For an id that is not live, to unregister it
changes nothing, and its timer only takes the pending entry. The paced runs of an engine
are such histories, with the same hooks run, and timelines are paced. -/
theorem grace_exact (es : List (Occasion TeardownHook)) :
    (∀ id time, time < (after es).now →
      ((∃ past, Reclaims es past id ∧ (after past).now = time) ↔ Awaits es id time)) ∧
    (∀ past id, Reclaims es past id → Awaits es id (after past).now) ∧
    (∀ id, Awaits es id (after es).now →
      (∃ past, Reclaims es past id ∧ (after past).now = (after es).now) ∨
        ∃ g c, (after es).tornDown? (.fire g) = some (id, c)) ∧
    (∀ g id c, (after es).tornDown? (.fire g) = some (id, c) ↔
      (after es).presence.contexts[id]? = some c ∧
        id ∉ (after (es ++ [.fire g])).presence.contexts) ∧
    (∀ g id c, (after es).tornDown? (.fire g) = some (id, c) →
      after (es ++ [.fire g]) =
          {after es with presence := ((after es).presence.cancel id).unregister id} ∧
        (after (es ++ [.fire g])).presence.Gone id) ∧
    ((after es).presence.pendingIds.Pairwise (fun a b => compare a b = .lt) ∧
      ∀ id, id ∈ (after es).presence.pendingIds ↔ Outstanding es id) ∧
    (∀ id, id ∉ (after es).presence.contexts →
      after (es ++ [.deed (.unregister id) trivial]) = after es ∧
      ∀ g timer, (after es).due? g = some timer → timer.id = id →
        (after es).tornDown? (.fire g) = none ∧ after (es ++ [.fire g]) =
          {after es with presence := (after es).presence.cancel id}) ∧
    (∀ documents files cleanupDelay f,
      (Engine.start documents files cleanupDelay).Paced es f →
        f.clocked = after es ∧
        (∀ id, (f.apply (.unregister id)).2 = f.withPresence (f.presence.unregister id)) ∧
        ∀ g timer, f.clocked.due? g = some timer → (f.fire timer.id g).1 =
          ((f.clocked.tornDown? (.fire g)).map fun torn =>
            torn.2.hooks.map fun hook => ⟨hook.name, torn.2⟩).getD []) ∧
    ∀ e t, Timeline.Calm e t → (∀ limit goOn, Timeline.Calm e (t.drive limit goOn)) ∧
      (∀ task : Task, task.Quiet → Timeline.Calm e (t.launch task).2) ∧
      ∀ name, Timeline.Calm e (t.abort name).2 := by
  refine ⟨fun id time htime => ⟨?_, fun h => reclaims_of_awaits h htime⟩,
    fun past id => awaits_of_reclaims,
    fun id h => (reclaims_or_due h (Nat.le_refl _)).imp_right And.right, fun g id c => tornDown_iff,
    fun g id c h => (gone_of_tornDown h).2,
    ⟨(after es).presence.pendingIds_sorted, fun id => pending_iff_outstanding⟩, ?_, ?_,
    fun e t h => ⟨h.drive, fun task hquiet => h.launch hquiet, h.abort⟩⟩
  · rintro ⟨past, hreclaims, rfl⟩
    exact awaits_of_reclaims hreclaims
  · intro id hlive
    constructor
    · rw [after_concat]
      exact congrArg (Clocked.mk · _) (Presence.unregister_of_not_mem hlive)
    · rintro g timer hdue rfl
      cases fired es g with
      | idle notDue _ _ => cases notDue.symm.trans hdue
      | away other due _ quiet left =>
        cases due.symm.trans hdue
        exact ⟨quiet, left⟩
      | live other c due hc _ _ =>
        cases due.symm.trans hdue
        exact absurd (Presence.mem_contexts_of_some hc) hlive
  · intro documents files cleanupDelay f hpaced
    exact ⟨hpaced.clocked_eq, fun id => rfl, fun g timer => Engine.runs_fire⟩

/-- A context whose hook does nothing to presence. -/
def leaving : LiveContext :=
  {id := "a", route := "/", session := "s", hooks := [.mk "farewell" [.clearCache]]}

/-- A cleanup is replaced by an earlier one. Another one is for an id that is not live, and
outlasts an attempt to unregister it. -/
def lapsing : List (Occasion TeardownHook) :=
  [.deed (.register leaving) trivial, .schedule "a" 10, .schedule "a" 5, .schedule "b" 3,
    .deed (.unregister "b") trivial, .wait 3, .fire 4, .wait 2, .fire 3, .wait 6]

theorem quiet_leaving : ∀ hook ∈ leaving.hooks, hook.Quiet := by
  intro hook hhook op hop e
  obtain rfl := List.mem_singleton.mp hhook
  obtain rfl := List.mem_singleton.mp hop
  rfl

/-- An engine that does the same, when the earlier cleanup is due. -/
def expiring : Engine :=
  let e := (Engine.start default default 10).applyAll [.register leaving, .schedule "a" none,
    .schedule "a" (some 5), .schedule "b" (some 3), .unregister "b"]
  let e := (Engine.fire {e with now := e.now + 3} "b" 4).2
  {e with now := e.now + 2}

theorem paced_expiring : (Engine.start default default 10).Paced (lapsing.take 8) expiring := by
  have hset : (Engine.start default default 10).Paced (lapsing.take 5) _ :=
    .operation (.unregister "b") (.operation (.schedule "b" (some 3))
      (.operation (.schedule "a" (some 5)) (.operation (.schedule "a" none)
        (.operation (.register leaving) .rest))))
  have hfired : (Engine.start default default 10).Paced (lapsing.take 7) _ :=
    (hset.wait 3 rfl).fire (show Clocked.due? _ 4 = some ⟨"b", 3⟩ from rfl) fun c hc => by cases hc
  exact hfired.wait 2 rfl

/-- A first load for such a context. -/
def arriving : Task :=
  {name := "first", purpose := .firstLoad leaving, scope := default, view := {outcome := .ok ""},
    startedAt := 0}

theorem quiet_arriving : arriving.Quiet where
  operations op hop := by cases hop
  context c hc := by
    obtain rfl := Purpose.firstLoad.inj hc
    exact quiet_leaving

/-- The earlier cleanup takes place when it is due, and the later one does not; the other id
has a cleanup pending until it is due. An engine that goes the same way runs the hook, and a
timeline in which the context arrives keeps the pace. -/
theorem grace_exact_lapsing :
    Reclaims lapsing (lapsing.take 8) "a" ∧ Awaits lapsing "a" 5 ∧ ¬ Awaits lapsing "a" 10 ∧
      (after (lapsing.take 9)).presence.Gone "a" ∧
      after (lapsing.take 5) = after (lapsing.take 4) ∧
      Outstanding (lapsing.take 5) "b" ∧ ¬ Outstanding (lapsing.take 7) "b" ∧
      (expiring.fire "a" 3).1 = [⟨"farewell", leaving⟩] ∧
      Timeline.Calm (Engine.start default default 10)
        (((Timeline.start (Engine.start default default 10)).launch arriving).2.drive 9
          fun _ _ => true) := by
  have hreclaims : Reclaims lapsing (lapsing.take 8) "a" :=
    ⟨3, leaving, ⟨_, rfl⟩, rfl, rfl, by decide⟩
  obtain ⟨hexact, hawaits, _⟩ := grace_exact lapsing
  obtain ⟨_, _, _, _, hgone, _, _, hengine, htimeline⟩ := grace_exact (lapsing.take 8)
  obtain ⟨_, _, _, _, _, _, haway, _⟩ := grace_exact (lapsing.take 4)
  obtain ⟨_, _, _, _, _, ⟨_, hpending⟩, _⟩ := grace_exact (lapsing.take 5)
  obtain ⟨_, _, _, _, _, ⟨_, hpast⟩, _⟩ := grace_exact (lapsing.take 7)
  refine ⟨hreclaims, hawaits _ _ hreclaims, ?_, (hgone 3 "a" leaving rfl).2,
    (haway "b" (by decide)).1, (hpending "b").mp (by decide), ?_, ?_, ?_⟩
  · intro h
    obtain ⟨past, ⟨g, _, hcomes, _⟩, hnow⟩ := (hexact "a" 10 (by decide)).mpr h
    -- The clock is at five until the last event, and that is none of a timer.
    have hlast : lapsing = lapsing.take 9 ++ [.wait 6] := rfl
    rw [hlast] at hcomes
    rcases comes_concat_iff.mp hcomes with ⟨-, heq⟩ | hbefore
    · cases heq
    · have hle := now_mono hbefore.isPrefix
      rw [hnow] at hle
      exact absurd hle (by decide)
  · exact fun h => absurd ((hpast "b").mpr h) (by decide)
  · exact (hengine default default 10 expiring paced_expiring).2.2 3 ⟨"a", 5⟩ rfl
  · have hstart := Timeline.Calm.start (Engine.start default default 10)
      fun id c hc => by simp [Engine.start, Presence.empty] at hc
    have hlaunched := (htimeline _ _ hstart).2.1 arriving quiet_arriving
    exact (htimeline _ _ hlaunched).1 9 fun _ _ => true

end Clocked
end SharedViews

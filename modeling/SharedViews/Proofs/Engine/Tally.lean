import SharedViews.Proofs.Engine.Acts
import SharedViews.Proofs.Render.Privacy
import Mathlib.Algebra.Group.Nat.Defs
import Mathlib.Data.Finset.Insert

/-! How many renders are counted.

A call returns at one moment of a history at most, whichever way it came there: by its own
view, by a hit, or by the flight it waited for, perhaps after it claimed again and again.
An event lets one call return and is counted, or lets none return and is not (`tally`). So
the number in the durations is that of the calls that have returned since the last reset,
up to the largest word (`counted_once`). -/
namespace SharedViews
open Std

namespace Flights

theorem durations_abandon (fs : Flights) (scope : Scope) (flight : Nat) :
    (fs.abandon scope flight).durations = fs.durations := by
  unfold abandon
  split <;> rfl

theorem durations_deliver (fs : Flights) (scope : Scope) (flight : Nat) (html : String) :
    (fs.deliver scope flight html).durations = fs.durations := by
  by_cases hopen : fs.Open scope flight
  · rw [deliver_of_open html hopen]
    exact fs.durations_abandon scope flight
  · rw [deliver_of_not_open html hopen, durations_abandon]

end Flights

namespace Traffic
variable {ε : Type} {es past : List (Event ε)} {t t' : Traffic ε} {e : Event ε} {call other : Nat}

/-- The call has returned. -/
def Returned (t : Traffic ε) (call : Nat) : Prop :=
  ∃ request result, t.At call request (.returned result)

/-- The call returns with the event that comes after `past`. -/
def Returns (call : Nat) (past : List (Event ε)) (e : Event ε) : Prop :=
  (after (past ++ [e])).Returned call ∧ ¬ (after past).Returned call

/-- The call has returned, and the durations have not been reset since. -/
def Counted (es : List (Event ε)) (call : Nat) : Prop :=
  Since (Returns call) (fun _ e => e = .resetDurations) es

/-! ### One event -/

theorem Returned.step (h : t.Returned call) (e : Event ε) : (t.step e).Returned call := by
  obtain ⟨request, result, hat⟩ := h
  exact ⟨request, result, hat.step_of_over trivial⟩

theorem not_returned_of_at {request : Request} {phase : Phase ε} (h : t.At call request phase)
    (hphase : ∀ result, phase ≠ .returned result) : ¬ t.Returned call := by
  rintro ⟨_, result, hat⟩
  exact hphase result (h.unique hat).2

theorem not_returned_of_new (h : t.calls[call]? = none) : ¬ t.Returned call := by
  rintro ⟨_, _, hat⟩
  rw [At, h] at hat
  cases hat

/-- A call that claims has not returned. -/
theorem not_returned_of_claimant {request : Request} (h : t.claimant? e = some (call, request)) :
    ¬ t.Returned call := by
  rcases claimant_cases h with ⟨_, _, hnew, _⟩ | ⟨_, _, _, hat, _⟩
  · exact not_returned_of_new hnew
  · exact not_returned_of_at hat nofun

theorem returned_returns {request : Request} {result : Except ε String} {seconds : Float}
    (hcalls : t'.calls = t.calls) :
    (t'.returns call request result seconds).Returned other ↔ other = call ∨ t.Returned other := by
  constructor
  · rintro ⟨r, p, hat⟩
    have hset : (t'.setPhase call request (.returned result)).At other r (.returned p) := hat
    rcases at_setPhase hset with ⟨hsame, _⟩ | ⟨_, hold⟩
    · exact .inl hsame
    · rw [At, hcalls] at hold
      exact .inr ⟨r, p, hold⟩
  · rintro (rfl | ⟨r, p, hat⟩)
    · exact ⟨request, result, at_setPhase_self t' other request _⟩
    · by_cases hsame : call = other
      · subst hsame
        exact ⟨request, result, at_setPhase_self t' call request _⟩
      · refine ⟨r, p, ?_⟩
        show (t'.calls.insert call _)[other]? = _
        rw [ExtTreeMap.getElem?_insert, if_neg (by simpa using hsame), hcalls]
        exact hat

theorem returned_setPhase {request : Request} {phase : Phase ε} (hcalls : t'.calls = t.calls)
    (hphase : ∀ result, phase ≠ .returned result) (hnot : ¬ t.Returned call) :
    (t'.setPhase call request phase).Returned other ↔ t.Returned other := by
  constructor
  · rintro ⟨r, p, hat⟩
    rcases at_setPhase hat with ⟨_, _, hsame⟩ | ⟨_, hold⟩
    · exact absurd hsame.symm (hphase p)
    · rw [At, hcalls] at hold
      exact ⟨r, p, hold⟩
  · rintro ⟨r, p, hat⟩
    have hne : call ≠ other := by
      rintro rfl
      exact hnot ⟨r, p, hat⟩
    refine ⟨r, p, ?_⟩
    show (t'.calls.insert call _)[other]? = _
    rw [ExtTreeMap.getElem?_insert, if_neg (by simpa using hne), hcalls]
    exact hat

theorem durations_lands (t : Traffic ε) (scope : Scope) (flight : Nat) (html : Option String) :
    (t.lands scope flight html).flights.durations = t.flights.durations := by
  cases html with
  | none => exact t.flights.durations_abandon scope flight
  | some html => exact t.flights.durations_deliver scope flight html

/-- What an event that leads from one traffic to another does to the durations, and who
returns with it. -/
inductive Tally (t : Traffic ε) (e : Event ε) (t' : Traffic ε) : Prop
  | counts (call : Nat) (seconds : Float) (noReset : e ≠ .resetDurations)
      (durations : t'.flights.durations = t.flights.durations.record seconds)
      (before : ¬ t.Returned call)
      (returned : ∀ other, t'.Returned other ↔ other = call ∨ t.Returned other)
  | keeps (noReset : e ≠ .resetDurations) (durations : t'.flights.durations = t.flights.durations)
      (returned : ∀ other, t'.Returned other ↔ t.Returned other)
  | resets (reset : e = .resetDurations) (durations : t'.flights.durations = .empty)
      (returned : ∀ other, t'.Returned other ↔ t.Returned other)

theorem tally (t : Traffic ε) (e : Event ε) : Tally t e (t.step e) := by
  by_cases hreset : e = .resetDurations
  · subst hreset
    exact .resets rfl rfl fun _ => Iff.rfl
  have hturn := t.turn e
  generalize t.step e = t' at hturn ⊢
  cases hturn with
  | idle _ _ => exact .keeps hreset rfl fun _ => Iff.rfl
  | view hnew _ =>
    exact .keeps hreset rfl fun _ => returned_setPhase rfl nofun (not_returned_of_new hnew)
  | viewed hat =>
    exact .counts _ _ hreset rfl (not_returned_of_at hat nofun) fun _ => returned_returns rfl
  | hit hc _ =>
    exact .counts _ _ hreset rfl (not_returned_of_claimant hc) fun _ => returned_returns rfl
  | wait hc _ _ =>
    exact .keeps hreset rfl fun _ => returned_setPhase rfl nofun (not_returned_of_claimant hc)
  | lead hc _ _ =>
    exact .keeps hreset rfl fun _ => returned_setPhase rfl nofun (not_returned_of_claimant hc)
  | @land call request flight outcome seconds hat =>
    refine .counts call seconds hreset ?_ (not_returned_of_at hat nofun) fun _ =>
      returned_returns rfl
    exact congrArg (Durations.record · seconds) (t.durations_lands _ _ _)
  | served hat _ =>
    exact .counts _ _ hreset rfl (not_returned_of_at hat nofun) fun _ => returned_returns rfl
  | leave hat hp =>
    refine .keeps hreset rfl fun _ => returned_setPhase rfl nofun (not_returned_of_at hat ?_)
    rintro result rfl
    rcases hp with h | ⟨_, h⟩ <;> cases h
  | @lose call request flight hat =>
    refine .keeps hreset ?_ fun _ => returned_setPhase rfl nofun (not_returned_of_at hat nofun)
    exact t.durations_lands request.scope flight none
  | invalidate _ => exact .keeps hreset rfl fun _ => Iff.rfl
  | clear => exact .keeps hreset rfl fun _ => Iff.rfl
  | resetDurations => exact absurd rfl hreset

/-! ### Histories -/

theorem Returned.stays (h : (after past).Returned call) (hpast : past <+: es) :
    (after es).Returned call :=
  after_mono (P := fun t => t.Returned call) (fun _ e h => h.step e) hpast h

/-- A call returns once. -/
theorem Returns.once {past' : List (Event ε)} {e' : Event ε} (hcomes : Comes es past e)
    (h : Returns call past e) (hcomes' : Comes es past' e') (h' : Returns call past' e') :
    past = past' := by
  refine hcomes.same hcomes' (fun hearlier => ?_) fun hlater => ?_
  · exact h'.2 (h.1.stays hearlier)
  · exact h.2 (h'.1.stays hlater)

/-- A call that has returned did so at some moment. -/
theorem returned_iff : (after es).Returned call ↔ ∃ past e, Comes es past e ∧ Returns call past e := by
  constructor
  · intro h
    induction es using List.reverseRecOn with
    | nil =>
      obtain ⟨_, _, hat⟩ := h
      exact absurd hat not_at_nil
    | append_singleton es e ih =>
      by_cases hbefore : (after es).Returned call
      · obtain ⟨past, e', hcomes, hreturns⟩ := ih hbefore
        exact ⟨past, e', hcomes.mono (List.prefix_append es [e]), hreturns⟩
      · exact ⟨es, e, comes_concat es e, h, hbefore⟩
  · rintro ⟨past, e, hcomes, hreturns⟩
    exact hreturns.1.stays hcomes

theorem Counted.returned (h : Counted es call) : (after es).Returned call := by
  obtain ⟨past, e, ⟨hcomes, _⟩, hreturns⟩ := h
  exact hreturns.1.stays hcomes

theorem count_record (d : Durations) (seconds : Float) (n : Nat)
    (h : d.count = min n (2 ^ 64 - 1)) : (d.record seconds).count = min (n + 1) (2 ^ 64 - 1) := by
  show min (d.count + 1) (2 ^ 64 - 1) = _
  omega

/-- The number in the durations is that of the calls to be counted. -/
theorem count_after (es : List (Event ε)) : ∃ calls : Finset Nat,
    (∀ call, call ∈ calls ↔ Counted es call) ∧
      (after es).flights.durations.count = min calls.card (2 ^ 64 - 1) := by
  induction es using List.reverseRecOn with
  | nil => exact ⟨∅, fun call => iff_of_false (Finset.notMem_empty call) since_nil, rfl⟩
  | append_singleton es e ih =>
    obtain ⟨calls, hmem, hcount⟩ := ih
    have hcounted : ∀ call, Counted (es ++ [e]) call ↔
        Returns call es e ∨ (Counted es call ∧ e ≠ .resetDurations) := fun _ => since_concat
    have hreturns : ∀ call, Returns call es e ↔
        ((after es).step e).Returned call ∧ ¬ (after es).Returned call := by
      intro call
      rw [Returns, after_concat]
    rw [after_concat]
    cases (after es).tally e with
    | counts call seconds hreset hdurations hbefore hreturned =>
      -- Whoever is counted has returned, so the call that returns now is not counted yet.
      have hnew : call ∉ calls := fun h => hbefore ((hmem call).mp h).returned
      refine ⟨insert call calls, fun other => ?_, ?_⟩
      · rw [Finset.mem_insert, hmem, hcounted, hreturns, hreturned]
        constructor
        · rintro (rfl | h)
          · exact .inl ⟨.inl rfl, hbefore⟩
          · exact .inr ⟨h, hreset⟩
        · rintro (⟨rfl | h, hnot⟩ | ⟨h, _⟩)
          · exact .inl rfl
          · exact absurd h hnot
          · exact .inr h
      · rw [hdurations, Finset.card_insert_of_notMem hnew]
        exact count_record _ seconds _ hcount
    | keeps hreset hdurations hreturned =>
      refine ⟨calls, fun other => ?_, by rw [hdurations, hcount]⟩
      rw [hmem, hcounted, hreturns, hreturned, and_not_self_iff, false_or, and_iff_left hreset]
    | resets hreset hdurations hreturned =>
      refine ⟨∅, fun other => ?_, by rw [hdurations]; rfl⟩
      rw [hcounted, hreturns, hreturned, and_not_self_iff, false_or]
      exact iff_of_false (Finset.notMem_empty other) fun h => h.2 hreset

/-- A call that is cancelled does not return. -/
theorem durations_cancel (t : Traffic ε) (call : Nat) :
    (t.step (.cancel call)).flights.durations = t.flights.durations := by
  have hturn := t.turn (.cancel call)
  generalize t.step (.cancel call) = t' at hturn ⊢
  cases hturn with
  | idle _ _ => rfl
  | hit hc _ => cases hc
  | wait hc _ _ => cases hc
  | lead hc _ _ => cases hc
  | leave _ _ => rfl
  | @lose _ request flight _ => exact t.durations_lands request.scope flight none

end Traffic

/-- An update for an id that is not live is refused at once. -/
theorem Timeline.launch_refused (t : Timeline) {task : Task} {id : ContextId}
    (hpurpose : task.purpose = .update id) (h : id ∉ t.engine.presence.contexts) :
    (t.launch task).2.engine = t.engine ∧ (t.launch task).2.results[(t.launch task).1]? =
      some (.error (.engine (.unknownContext id))) := by
  have hnone : ∀ seconds, t.engine.beginUpdate t.nextCall task.scope id seconds = none := by
    intro seconds
    rw [Engine.beginUpdate, ExtTreeMap.getElem?_eq_none h]
    rfl
  unfold Timeline.launch Timeline.finish
  simp only [hpurpose, hnone]
  split
  · exact ⟨rfl, ExtTreeMap.getElem?_insert_self⟩
  · exact ⟨rfl, ExtTreeMap.getElem?_insert_self⟩

namespace Traffic
variable {ε : Type}

/-- **Every finished render is counted once.** After every history, the number of renders is
that of the calls that have returned, with a view or an error, since the durations were last
reset, as far as words go. A call that has returned did so at one moment; one that is
cancelled is not counted, and to cancel it changes no figure. The renders of an engine are
such a history, also where a timeline has it act, and an update that is refused, its id not
being live, is no part of it. -/
theorem counted_once (es : List (Event ε)) :
    (∃ calls : Finset Nat, (∀ call, call ∈ calls ↔ Counted es call) ∧
      (after es).flights.durations.figures.count = min calls.card (2 ^ 64 - 1)) ∧
    (∀ call, (after es).Returned call ↔ ∃ past e, Comes es past e ∧ Returns call past e) ∧
    (∀ call past past' e e', Comes es past e → Returns call past e → Comes es past' e' →
      Returns call past' e' → past = past') ∧
    (∀ call, (after (es ++ [.cancel call])).flights.durations = (after es).flights.durations) ∧
    (∀ call request, (after es).At call request .cancelled → ¬ Counted es call) ∧
    (∀ documents files cleanupDelay acts,
      ((Engine.start documents files cleanupDelay).after acts).traffic =
        after (acts.flatMap Act.events)) ∧
    (∀ documents files cleanupDelay t,
      Timeline.Played (Engine.start documents files cleanupDelay) t →
        ∃ es : List (Event ViewError), t.engine.traffic = after es) ∧
    ∀ (t : Timeline) (task : Task) (id : ContextId), task.purpose = .update id →
      id ∉ t.engine.presence.contexts →
      (t.launch task).2.engine = t.engine ∧ (t.launch task).2.results[(t.launch task).1]? =
        some (.error (.engine (.unknownContext id))) := by
  refine ⟨count_after es, fun call => returned_iff,
    fun call past past' e e' hcomes h hcomes' h' => h.once hcomes hcomes' h', fun call => ?_,
    fun call request hat hcounted => ?_,
    fun documents files cleanupDelay acts => Engine.traffic_after _ acts,
    fun documents files cleanupDelay t hplayed => ?_, fun t task id hpurpose h => t.launch_refused hpurpose h⟩
  · rw [after_concat, durations_cancel]
  · exact not_returned_of_at hat nofun hcounted.returned
  · obtain ⟨acts, hacts⟩ := hplayed.follows
    exact ⟨_, hacts ▸ Engine.traffic_after _ acts⟩

/-- A leader fails before the durations are reset. Of its two waiters one is cancelled and
the other leads in its place; a last call finds the view that it leaves. -/
def reckoned : List (Event String) :=
  [.arrive 0 globalUpdate 0.0, .arrive 1 globalUpdate 0.0, .arrive 2 globalUpdate 0.0,
    .viewEnds 0 (.error "boom") 0.0, .resetDurations, .resume 1 0.0, .cancel 2,
    .viewEnds 1 (.ok "a") 0.0, .arrive 3 globalUpdate 0.0]

/-- An update for a context that is not live. -/
def straying : Task :=
  {name := "late", purpose := .update "a", scope := .global, view := {outcome := .ok ""},
    startedAt := 0}

/-- What comes of it. -/
def strayed : Timeline :=
  ((Timeline.start (Engine.start default (fun _ => .error .notFound) 0)).launch straying).2

/-- Two calls are counted, each at one moment; neither the first one, which returned before
the reset, nor the one that is cancelled, nor a refused update. -/
theorem counted_once_reckoned :
    (∃ calls : Finset Nat, (∀ call, call ∈ calls ↔ Counted reckoned call) ∧ calls.card = 2) ∧
      (∀ past e, Comes reckoned past e → Returns 1 past e → past = reckoned.take 7) ∧
      (after reckoned).At 2 globalUpdate .cancelled ∧ ¬ Counted reckoned 2 ∧
      (∃ es : List (Event ViewError), strayed.engine.traffic = after es) ∧
      strayed.engine = Engine.start default (fun _ => .error .notFound) 0 := by
  obtain ⟨⟨calls, hmem, hcount⟩, _, honce, _, hcancelled, _, hplayed, hrefused⟩ :=
    counted_once reckoned
  have htwo : (after reckoned).flights.durations.figures.count = 2 := rfl
  have hat : (after reckoned).At 2 globalUpdate .cancelled := rfl
  have hreturns : Returns 1 (reckoned.take 7) (.viewEnds 1 (.ok "a") 0.0) :=
    have hbefore : (after (reckoned.take 7)).At 1 globalUpdate (.leading 2) := rfl
    ⟨⟨globalUpdate, .ok "a", rfl⟩, not_returned_of_at hbefore nofun⟩
  refine ⟨⟨calls, hmem, by omega⟩, fun past e hcomes h => ?_, hat, hcancelled 2 globalUpdate hat,
    hplayed _ _ _ strayed (.launch straying .start),
    (hrefused (Timeline.start _) straying "a" rfl (by decide)).1⟩
  exact honce 1 past (reckoned.take 7) e _ hcomes h ⟨_, rfl⟩ hreturns

end Traffic
end SharedViews

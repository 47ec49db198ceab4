import SharedViews.Proofs.Render.Ownership
import SharedViews.Proofs.Render.Waiting

/-! Renders that fail or are cancelled.

A view that fails gives its error to the call that ran it and to nobody else
(`error_from`): a hit and a waiter return html or nothing. A leader that ends so
abandons its flight (`Fails.abandons`), which frees the slot and the mark of a scope
that it still owns and changes nothing else. The scope is then vacant: it holds no
view and nobody may join a flight of it. It stays vacant until the next claim on it
(`vacant_after`), and on a vacant scope a claim leads (`leads_of_vacant`). -/
namespace SharedViews.Flights
open Std

/-- The scope holds no update view, and no flight that may be joined. -/
def Vacant (fs : Flights) (scope : Scope) : Prop :=
  fs.view? scope = none ∧ ∀ flight, ¬ fs.Open scope flight

theorem views_abandon (fs : Flights) (scope : Scope) (flight : Nat) :
    (fs.abandon scope flight).cache.views = fs.cache.views := by
  unfold abandon
  split <;> rfl

theorem isMarked_abandon (fs : Flights) (scope other : Scope) (flight : Nat) :
    (fs.abandon scope flight).cache.isMarked other =
      if scope = other ∧ fs.owns scope flight = true then false
      else fs.cache.isMarked other := by
  unfold abandon
  by_cases howns : fs.owns scope flight = true
  · rw [if_pos howns]
    show (fs.cache.mark scope false).isMarked other = _
    rw [RenderedViews.isMarked_mark]
    simp [howns]
  · simp [howns]

/-- What is left of `old` when the flight has ended without a view: every view, and every
slot and mark but those that the flight had. -/
structure Abandoned (old new : Flights) (scope : Scope) (flight : Nat) : Prop where
  views : new.cache.views = old.cache.views
  freed : old.owns scope flight = true →
    scope ∉ new.slots ∧ new.cache.isMarked scope = false
  kept : ¬ old.owns scope flight = true →
    new.slots = old.slots ∧ new.cache.marks = old.cache.marks
  others : ∀ other ≠ scope, new.slots[other]? = old.slots[other]? ∧
    new.cache.isMarked other = old.cache.isMarked other

theorem abandoned_abandon (fs : Flights) (scope : Scope) (flight : Nat) :
    Abandoned fs (fs.abandon scope flight) scope flight where
  views := fs.views_abandon scope flight
  freed howns := by
    rw [ExtTreeMap.mem_iff_isSome_getElem?, slots_abandon, isMarked_abandon,
      if_pos ⟨rfl, howns⟩, if_pos ⟨rfl, howns⟩]
    exact ⟨Bool.false_ne_true, rfl⟩
  kept hnot := by
    rw [abandon_of_not_owns hnot]
    exact ⟨rfl, rfl⟩
  others other hne := by
    rw [slots_abandon, isMarked_abandon, if_neg fun h => hne h.1.symm,
      if_neg fun h => hne h.1.symm]
    exact ⟨rfl, rfl⟩

theorem Abandoned.of_same {old new new' : Flights} {scope : Scope} {flight : Nat}
    (h : Abandoned old new scope flight) (hcache : new'.cache = new.cache)
    (hslots : new'.slots = new.slots) : Abandoned old new' scope flight where
  views := hcache ▸ h.views
  freed := by
    rw [hcache, hslots]
    exact h.freed
  kept := by
    rw [hcache, hslots]
    exact h.kept
  others := by
    rw [hcache, hslots]
    exact h.others

theorem Vacant.claim {fs : Flights} {scope : Scope} (h : fs.Vacant scope) :
    fs.claim scope = (.lead (fs.lastFlight + 1), fs.start scope) := by
  refine claim_lead h.1 ?_
  cases hjoin : fs.joinable scope with
  | none => rfl
  | some flight => exact absurd (joinable_eq_some hjoin) (h.2 flight.number)

end Flights

namespace Traffic
open Std
variable {ε : Type} {es : List (Event ε)} {t : Traffic ε} {e : Event ε}

/-- The event ends the call without a view. -/
inductive Fails (call : Nat) : Event ε → Prop
  | error (cause : ε) (seconds : Float) : Fails call (.viewEnds call (.error cause) seconds)
  | cancel : Fails call (.cancel call)

/-- The call runs its view, for itself alone or as a leader. -/
def Renders (t : Traffic ε) (call : Nat) (request : Request) : Prop :=
  t.At call request .viewing ∨ ∃ flight, t.At call request (.leading flight)

/-- The view that the call ran ended with the result. -/
def Gives (es : List (Event ε)) (call : Nat) (request : Request) (result : Except ε String) :
    Prop :=
  ∃ past seconds, Happens es past (.viewEnds call result seconds) ∧
    (after past).Renders call request

/-! ### Errors -/

theorem Gives.mono {es' : List (Event ε)} {call : Nat} {request : Request}
    {result : Except ε String} (h : Gives es call request result) (hes : es <+: es') :
    Gives es' call request result := by
  obtain ⟨past, seconds, hends, hrenders⟩ := h
  exact ⟨past, seconds, hends.mono hes, hrenders⟩

/-- A call that has returned an error ran its view, and the view ended with it. -/
theorem error_from {call : Nat} {request : Request} {cause : ε}
    (h : (after es).At call request (.returned (.error cause))) :
    Gives es call request (.error cause) := by
  induction es using List.reverseRecOn with
  | nil => exact absurd h not_at_nil
  | append_singleton es e ih =>
    rw [after_concat] at h
    rcases moves h with ⟨hat, _⟩ | hmove
    · exact (ih hat).mono (List.prefix_append es [e])
    · cases hmove with
      | viewed hat => exact ⟨es, _, happens_concat es _, .inl hat⟩
      | land hat => exact ⟨es, _, happens_concat es _, .inr ⟨_, hat⟩⟩

/-! ### Leaders and waiters -/

/-- A leader that ends without a view abandons its flight. -/
theorem Fails.abandons {call flight : Nat} {request : Request} (h : Fails call e)
    (hat : t.At call request (.leading flight)) :
    (t.step e).flights.cache = (t.flights.abandon request.scope flight).cache ∧
      (t.step e).flights.slots = (t.flights.abandon request.scope flight).slots ∧
      (t.step e).landed = t.landed.insert flight none := by
  cases h with
  | error cause seconds =>
    rw [step_viewEnds_of_leading hat]
    exact ⟨rfl, rfl, rfl⟩
  | cancel =>
    rw [step_cancel_of_leading hat]
    exact ⟨rfl, rfl, rfl⟩

theorem Fails.abandoned {call flight : Nat} {request : Request} (h : Fails call e)
    (hat : t.At call request (.leading flight)) :
    Flights.Abandoned t.flights (t.step e).flights request.scope flight :=
  (t.flights.abandoned_abandon request.scope flight).of_same (h.abandons hat).1
    (h.abandons hat).2.1

theorem Fails.caller {call : Nat} (h : Fails call e) : caller? e = some call := by
  cases h with
  | error _ _ => rfl
  | cancel => rfl

/-- Whoever waits for the flight of a leader that ends without a view can claim again. -/
theorem Fails.releases {call waiter flight : Nat} {request r : Request} (h : Fails call e)
    (hat : (after es).At call request (.leading flight))
    (hwaits : (after es).At waiter r (.waiting flight)) :
    r.scope = request.scope ∧ ∀ seconds,
      (after (es ++ [e])).claimant? (.resume waiter seconds) = some (waiter, r) := by
  obtain ⟨_, hleads, _⟩ := leading_from hat
  obtain ⟨_, _, r', hleads', hscope, hne⟩ := leads_of_waiting hwaits
  obtain ⟨-, rfl, rfl⟩ := hleads.unique hleads'
  refine ⟨hscope.symm, fun seconds => ?_⟩
  rw [after_concat]
  refine claimant_resume ((at_step_iff ?_).mpr hwaits) ?_ seconds
  · rw [h.caller]
    exact fun hsame => hne (Option.some.inj hsame)
  · rw [(h.abandons hat).2.2]
    exact ExtTreeMap.getElem?_insert_self

/-- A waiter that is cancelled goes, and that is all. -/
theorem step_cancel_of_waiting {call flight : Nat} {request : Request}
    (h : t.At call request (.waiting flight)) :
    t.step (.cancel call) = t.setPhase call request .cancelled := by
  unfold At at h
  simp only [step, h]

/-! ### Vacant scopes -/

/-- The owner of a scope's slot leaves the scope vacant when it ends without a view. -/
theorem Fails.vacant {call flight : Nat} {request : Request} (h : Fails call e)
    (hat : (after es).At call request (.leading flight))
    (howns : (after es).flights.owns request.scope flight = true) :
    (after (es ++ [e])).flights.Vacant request.scope := by
  have habandoned := h.abandoned hat
  rw [after_concat]
  refine ⟨?_, fun f hopen => (habandoned.freed howns).1 ?_⟩
  · have hsame : ((after es).step e).flights.view? request.scope =
        (after es).flights.view? request.scope :=
      congrArg (·[ViewKey.mk request.scope .update]?) habandoned.views
    rw [hsame]
    cases hview : (after es).flights.view? request.scope with
    | none => rfl
    | some html =>
      obtain ⟨_, hslot⟩ := (Flights.owns_iff _ _ _).mp howns
      rw [closed_of_view hview] at hslot
      cases hslot
  · rw [ExtTreeMap.mem_iff_isSome_getElem?, hopen]
    rfl

/-- A vacant scope stays vacant until somebody claims it. -/
theorem vacant_step {scope : Scope} (h : t.flights.Vacant scope)
    (hno : ∀ call request, t.claimant? e = some (call, request) → request.scope ≠ scope) :
    (t.step e).flights.Vacant scope := by
  obtain ⟨hnone, hclosed⟩ := h
  cases t.shifts e scope with
  | keep _ hslot hview =>
    refine ⟨hview.trans hnone, fun flight hopen => hclosed flight ?_⟩
    rwa [Flights.Open, hslot] at hopen
  | start hc hscope _ _ _ _ _ => exact absurd hscope (hno _ _ hc)
  | land _ _ _ hslot _ hview =>
    -- The flight that lands is superseded or stale, so it stores nothing.
    refine ⟨?_, fun flight hopen => ?_⟩
    · rcases hview with hsame | ⟨_, _, _, hopen, _⟩
      · exact hsame.trans hnone
      · exact absurd hopen (hclosed _)
    · rw [Flights.Open, hslot] at hopen
      split at hopen
      · cases hopen
      · exact hclosed flight hopen
  | drop _ hslot hview =>
    refine ⟨hview, fun flight hopen => ?_⟩
    rw [Flights.Open, hslot] at hopen
    obtain ⟨_, _, hstale⟩ := Option.map_eq_some_iff.mp hopen
    cases hstale

theorem vacant_after {scope : Scope} {rest : List (Event ε)} (h : (after es).flights.Vacant scope)
    (hno : ∀ past call request, Claims (es ++ rest) past call request → es <+: past →
      request.scope ≠ scope) : (after (es ++ rest)).flights.Vacant scope := by
  induction rest using List.reverseRecOn with
  | nil => simpa using h
  | append_singleton rest e ih =>
    rw [← List.append_assoc] at hno ⊢
    rw [after_concat]
    refine vacant_step (ih fun past call request hclaims => ?_) fun call request hc => ?_
    · exact hno past call request (hclaims.mono (List.prefix_append _ [e]))
    · exact hno _ call request ⟨e, happens_concat _ e, hc⟩ (List.prefix_append es rest)

theorem step_of_claimant {call : Nat} {request : Request}
    (h : t.claimant? e = some (call, request)) :
    ∃ seconds, t.step e = t.claims call request seconds := by
  rcases claimant_cases h with ⟨seconds, rfl, hnew, hr⟩ | ⟨seconds, flight, rfl, hat, hl⟩
  · have hmem : t.calls.contains call = false := by
      rw [ExtTreeMap.contains_eq_isSome_getElem?, hnew]
      rfl
    exact ⟨seconds, by simp only [step, hmem, hr]; rfl⟩
  · unfold At at hat
    exact ⟨seconds, by simp only [step, hat, hl]⟩

/-- Whoever claims a vacant scope leads. -/
theorem leads_of_vacant {call : Nat} {request : Request}
    (hc : (after es).claimant? e = some (call, request))
    (h : (after es).flights.Vacant request.scope) :
    Leads (es ++ [e]) es call request ((after es).flights.lastFlight + 1) := by
  refine ⟨e, happens_concat es e, hc, ?_⟩
  obtain ⟨seconds, hstep⟩ := step_of_claimant hc
  rw [after_concat, hstep, claims, h.claim]
  exact at_setPhase_self _ call request _

/-- **Failures leave no trace.** After every history: an error that a call has returned
is the one that its own view ended with. A leader that ends without a view changes no
stored view; it frees its scope's slot and mark if it has the slot, which it has unless
it was superseded, and else changes no slot and no mark; those of other scopes it never
changes. A waiter that is cancelled changes nothing but itself. And once a leader that
was not superseded has ended without a view, those that waited for it may claim again,
and whoever claims the scope first from then on leads. -/
theorem failure_traceless (es : List (Event ε)) :
    (∀ call request cause, (after es).At call request (.returned (.error cause)) →
      Gives es call request (.error cause)) ∧
    (∀ start call request flight e, (after es).At call request (.leading flight) →
      Leads es start call request flight → Fails call e →
      Flights.Abandoned (after es).flights (after (es ++ [e])).flights request.scope flight ∧
        ((after es).flights.owns request.scope flight = true ↔
          ¬ Superseded es start request.scope)) ∧
    (∀ call request flight, (after es).At call request (.waiting flight) →
      after (es ++ [.cancel call]) = (after es).setPhase call request .cancelled) ∧
    ∀ start call request flight e, (after es).At call request (.leading flight) →
      Leads es start call request flight → ¬ Superseded es start request.scope → Fails call e →
      (∀ waiter r, (after es).At waiter r (.waiting flight) → r.scope = request.scope ∧
        ∀ seconds, (after (es ++ [e])).claimant? (.resume waiter seconds) = some (waiter, r)) ∧
      ∀ rest e' call' r, (∀ past other r', Claims (es ++ [e] ++ rest) past other r' →
          es ++ [e] <+: past → r'.scope ≠ request.scope) →
        (after (es ++ [e] ++ rest)).claimant? e' = some (call', r) → r.scope = request.scope →
        ∃ flight', Leads (es ++ [e] ++ rest ++ [e']) (es ++ [e] ++ rest) call' r flight' := by
  refine ⟨fun call request cause h => error_from h, ?_, ?_, ?_⟩
  · intro start call request flight e hat hleads hfails
    rw [after_concat, superseded_iff hat hleads, not_not]
    exact ⟨hfails.abandoned hat, Iff.rfl⟩
  · intro call request flight hat
    rw [after_concat, step_cancel_of_waiting hat]
  · intro start call request flight e hat hleads hkept hfails
    refine ⟨fun waiter r hwaits => hfails.releases hat hwaits, ?_⟩
    intro rest e' call' r hno hc hscope
    have howns := (owns_or_superseded hat hleads).resolve_right hkept
    have hvacant := vacant_after (hfails.vacant hat howns) hno
    rw [← hscope] at hvacant
    exact ⟨_, leads_of_vacant hc hvacant⟩

/-- A view that a second call waits for fails. -/
def failing : List (Event String) :=
  [.arrive 0 globalUpdate 0.0, .arrive 1 globalUpdate 0.0, .viewEnds 0 (.error "boom") 0.0]

/-- The error is the leader's alone; the slot and the mark are gone, and the waiter leads
when it goes on. -/
theorem failure_traceless_retried :
    (after failing).At 0 globalUpdate (.returned (.error "boom")) ∧
      Gives failing 0 globalUpdate (.error "boom") ∧
      (after (failing.take 2)).At 0 globalUpdate (.leading 1) ∧
      Leads (failing.take 2) [] 0 globalUpdate 1 ∧
      ¬ Superseded (failing.take 2) [] .global ∧
      (after (failing.take 2)).At 1 globalUpdate (.waiting 1) ∧
      Scope.global ∉ (after failing).flights.slots ∧
      (after failing).flights.cache.isMarked .global = false ∧
      ∃ flight, Leads (failing ++ [.resume 1 0.0]) failing 1 globalUpdate flight := by
  have hat : (after (failing.take 2)).At 0 globalUpdate (.leading 1) := rfl
  have hleads : Leads (failing.take 2) [] 0 globalUpdate 1 := ⟨_, ⟨_, rfl⟩, rfl, rfl⟩
  have hfails : Fails (ε := String) 0 (.viewEnds 0 (.error "boom") 0.0) := .error "boom" 0.0
  have hwaits : (after (failing.take 2)).At 1 globalUpdate (.waiting 1) := rfl
  obtain ⟨herror, _⟩ := failure_traceless failing
  obtain ⟨_, hends, _, hnext⟩ := failure_traceless (failing.take 2)
  obtain ⟨habandoned, howner⟩ := hends _ _ _ _ _ hat hleads hfails
  have howns : (after (failing.take 2)).flights.owns .global 1 = true := rfl
  have hkept := howner.mp howns
  have hfreed := habandoned.freed howns
  obtain ⟨hagain, hfirst⟩ := hnext _ _ _ _ _ hat hleads hkept hfails
  refine ⟨rfl, herror 0 globalUpdate "boom" rfl, hat, hleads, hkept, hwaits, hfreed.1, hfreed.2, ?_⟩
  refine hfirst [] (.resume 1 0.0) 1 globalUpdate ?_ ((hagain 1 globalUpdate hwaits).2 0.0) rfl
  intro later other r hclaims hlater
  obtain ⟨_, hhappens, _⟩ := hclaims
  have hle := hlater.length_le
  have hlt := hhappens.length_le
  simp at hle hlt
  omega

end Traffic
end SharedViews

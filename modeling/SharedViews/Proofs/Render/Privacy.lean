import SharedViews.Proofs.Render.Failure

/-! Private renders.

A private call — for the tab scope, of a first load, or for a context that keeps out of
the cache — runs its own view once, when it arrives, and returns what that gives. What
scopes hold, and what other calls return, was given by views that others ran
(`returned_gives`, `view_gives`). And a private call leaves no trace with the others:
`forget` is the traffic as everybody but the call can tell it, durations left out. An
event that names the call does nothing to it (`step_forget_self`), any other does to it
what it does to the traffic (`step_forget`), so a history and the same history
without the call agree throughout on everything but durations (`after_without`). -/
namespace SharedViews
open Std

theorem Request.not_isShared_iff (r : Request) :
    r.isShared = false ↔ r.scope = .tab ∨ r.kind = .initial ∨ r.caching = false := by
  obtain ⟨scope, kind, caching⟩ := r
  cases scope <;> cases kind <;> simp [isShared, Scope.isShared]

namespace Flights

/-! ### Durations decide nothing -/

theorem claim_resetDurations (fs : Flights) (scope : Scope) :
    fs.resetDurations.claim scope =
      ((fs.claim scope).1, (fs.claim scope).2.resetDurations) := by
  cases hview : fs.view? scope with
  | some html =>
    have hview' : fs.resetDurations.view? scope = some html := hview
    rw [claim_hit hview, claim_hit hview']
  | none =>
    have hview' : fs.resetDurations.view? scope = none := hview
    cases hjoin : fs.joinable scope with
    | some flight =>
      have hjoin' : fs.resetDurations.joinable scope = some flight := hjoin
      rw [claim_wait hview hjoin, claim_wait hview' hjoin']
    | none =>
      have hjoin' : fs.resetDurations.joinable scope = none := hjoin
      rw [claim_lead hview hjoin, claim_lead hview' hjoin']
      rfl

theorem abandon_resetDurations (fs : Flights) (scope : Scope) (flight : Nat) :
    fs.resetDurations.abandon scope flight = (fs.abandon scope flight).resetDurations := by
  unfold abandon
  show (if fs.owns scope flight = true then fs.resetDurations.free scope
    else fs.resetDurations) = _
  split <;> rfl

theorem deliver_resetDurations (fs : Flights) (scope : Scope) (flight : Nat) (html : String) :
    fs.resetDurations.deliver scope flight html =
      (fs.deliver scope flight html).resetDurations := by
  by_cases hopen : fs.Open scope flight
  · have hopen' : fs.resetDurations.Open scope flight := hopen
    rw [deliver_of_open html hopen, deliver_of_open html hopen', abandon_resetDurations]
    rfl
  · have hopen' : ¬ fs.resetDurations.Open scope flight := hopen
    rw [deliver_of_not_open html hopen, deliver_of_not_open html hopen', abandon_resetDurations]

end Flights

namespace Traffic
variable {ε : Type} {es : List (Event ε)} {t t' : Traffic ε} {e : Event ε} {call : Nat}

/-- The traffic as it is to everybody but the call, durations left out. -/
def forget (t : Traffic ε) (call : Nat) : Traffic ε :=
  {t with flights := t.flights.resetDurations, calls := t.calls.erase call}

/-- The history without the events of the call. -/
def without (es : List (Event ε)) (call : Nat) : List (Event ε) :=
  es.filter fun e => caller? e != some call

/-- The call begins to run its view after `past`. -/
def Starts (es past : List (Event ε)) (call : Nat) : Prop :=
  ∃ e request, Happens es past e ∧ (after (past ++ [e])).Renders call request ∧
    ¬ (after past).Renders call request

/-! ### Alone -/

theorem step_arrive_of_private {request : Request} (hnew : t.calls[call]? = none)
    (hr : request.isShared = false) (seconds : Float) :
    t.step (.arrive call request seconds) = t.setPhase call request .viewing := by
  simp [step, ExtTreeMap.contains_eq_isSome_getElem?, hnew, hr]

theorem step_viewEnds_of_viewing {request : Request} (h : t.At call request .viewing)
    (outcome : Except ε String) (seconds : Float) :
    t.step (.viewEnds call outcome seconds) = t.returns call request outcome seconds := by
  unfold At at h
  simp only [step, h]

theorem step_cancel_of_viewing {request : Request} (h : t.At call request .viewing) :
    t.step (.cancel call) = t.setPhase call request .cancelled := by
  unfold At at h
  simp only [step, h]

/-! ### Who gave what -/

theorem Yields.gives {start : List (Event ε)} {leader : Nat} {scope : Scope} {html : String}
    (h : Yields es start leader scope html) :
    ∃ request, request.scope = scope ∧ request.isShared = true ∧
      Gives es leader request (.ok html) := by
  obtain ⟨request, flight, past, seconds, hscope, hleads, hends, hat⟩ := h
  exact ⟨request, hscope, hleads.shared, past, seconds, hends, .inr ⟨flight, hat⟩⟩

/-- A private call that has arrived runs its view, or has come to its end. -/
theorem private_phase {request : Request} {phase : Phase ε}
    (h : (after es).At call request phase) (hr : request.isShared = false) :
    phase = .viewing ∨ Over phase := by
  cases phase with
  | viewing => exact .inl rfl
  | leading flight =>
    rw [leading_shared h] at hr
    cases hr
  | waiting flight =>
    rw [waiting_shared h] at hr
    cases hr
  | returned _ => exact .inr trivial
  | cancelled => exact .inr trivial

/-- A call keeps what it asked for as long as it is known. -/
theorem At.stays {request : Request} {phase : Phase ε} {past : List (Event ε)}
    (h : (after past).At call request phase) (hpast : past <+: es) :
    ∃ p, (after es).At call request p := by
  refine after_mono (P := fun t => ∃ p, t.At call request p) ?_ hpast ⟨phase, h⟩
  rintro t e ⟨p, hat⟩
  obtain ⟨r, p', hat'⟩ := mem_calls_iff.mp (mem_calls_step (e := e) (mem_calls_iff.mpr ⟨_, _, hat⟩))
  obtain rfl := hat.request_eq hat'
  exact ⟨p', hat'⟩

theorem At.stays_of_over {request : Request} {phase : Phase ε} {past : List (Event ε)}
    (h : (after past).At call request phase) (hover : Over phase) (hpast : past <+: es) :
    (after es).At call request phase :=
  after_mono (P := fun t => t.At call request phase) (fun _ _ hat => hat.step_of_over hover) hpast h

theorem Gives.stays {request : Request} {result : Except ε String}
    (h : Gives es call request result) : (after es).At call request (.returned result) := by
  obtain ⟨past, seconds, hends, hrenders⟩ := h
  refine At.stays_of_over ?_ trivial hends
  rw [after_concat]
  rcases hrenders with hat | ⟨flight, hat⟩
  · rw [step_viewEnds_of_viewing hat]
    exact at_setPhase_self _ call request _
  · exact at_step_viewEnds hat result seconds

theorem cancelled_from {request : Request} (h : (after es).At call request .cancelled) :
    ∃ past, Happens es past (.cancel call) := by
  induction es using List.reverseRecOn with
  | nil => exact absurd h not_at_nil
  | append_singleton es e ih =>
    rw [after_concat] at h
    rcases moves h with ⟨hat, _⟩ | hmove
    · obtain ⟨past, hcancel⟩ := ih hat
      exact ⟨past, hcancel.mono (List.prefix_append es [e])⟩
    · cases hmove with
      | drop _ => exact ⟨es, happens_concat es _⟩

/-- A private call returns what its own view gave. -/
theorem gives_of_private {request : Request} {result : Except ε String}
    (h : (after es).At call request (.returned result)) (hr : request.isShared = false) :
    Gives es call request result := by
  induction es using List.reverseRecOn with
  | nil => exact absurd h not_at_nil
  | append_singleton es e ih =>
    rw [after_concat] at h
    rcases moves h with ⟨hat, _⟩ | hmove
    · exact (ih hat).mono (List.prefix_append es [e])
    · cases hmove with
      | viewed hat => exact ⟨es, _, happens_concat es _, .inl hat⟩
      | hit hc _ =>
        rw [Claims.shared ⟨e, happens_concat es e, hc⟩] at hr
        cases hr
      | land hat => exact ⟨es, _, happens_concat es _, .inr ⟨_, hat⟩⟩
      | served hat _ =>
        rw [waiting_shared hat] at hr
        cases hr

/-- A returned result was given by a view that ran for the call's scope: by the call's
own view, or by that of a shared call. -/
theorem returned_gives {request : Request} {result : Except ε String}
    (h : (after es).At call request (.returned result)) :
    ∃ giver r, r.scope = request.scope ∧ Gives es giver r result ∧
      (giver = call ∨ r.isShared = true) := by
  cases hr : request.isShared with
  | false => exact ⟨call, request, rfl, gives_of_private h hr, .inl rfl⟩
  | true =>
    cases result with
    | error cause => exact ⟨call, request, rfl, error_from h, .inl rfl⟩
    | ok html =>
      obtain ⟨_, _, leader, _, hyields, _⟩ := returned_from h hr
      obtain ⟨r, hscope, hshared, hgives⟩ := hyields.gives
      exact ⟨leader, r, hscope, hgives, .inr hshared⟩

/-- A stored view was given by the view that a shared call ran for the scope. -/
theorem view_gives {scope : Scope} {kind : RenderKind} {html : String}
    (h : (after es).flights.cache.get? scope kind = some html) :
    ∃ giver r, r.scope = scope ∧ Gives es giver r (.ok html) ∧ r.isShared = true := by
  obtain ⟨_, rfl⟩ := (proper_after es).views scope kind html h
  obtain ⟨_, leader, hyields, _⟩ := view_from h
  obtain ⟨r, hscope, hshared, hgives⟩ := hyields.gives
  exact ⟨leader, r, hscope, hgives, hshared⟩

/-! ### Forgetting a call -/

theorem calls_forget (t : Traffic ε) {other : Nat} (h : other ≠ call) :
    (t.forget call).calls[other]? = t.calls[other]? := by
  show (t.calls.erase call)[other]? = _
  rw [ExtTreeMap.getElem?_erase, if_neg (by simpa using h.symm)]

/-- An event that names another call finds that call as it is. -/
theorem calls_forget_caller {other : Nat} (h : caller? e ≠ some call)
    (hother : caller? e = some other) : (t.forget call).calls[other]? = t.calls[other]? := by
  refine calls_forget t ?_
  rintro rfl
  exact h hother

/-- What is left when a call is forgotten: the flights but for durations, the other calls,
and how flights have landed. -/
theorem forget_eq_iff : t.forget call = t'.forget call ↔
    t.flights.resetDurations = t'.flights.resetDurations ∧
      (∀ other ≠ call, t.calls[other]? = t'.calls[other]?) ∧ t.landed = t'.landed := by
  constructor
  · intro h
    refine ⟨congrArg Traffic.flights h, fun other hne => ?_, congrArg (·.landed) h⟩
    rw [← calls_forget t hne, ← calls_forget t' hne, h]
  · rintro ⟨hflights, hcalls, hlanded⟩
    have herase : t.calls.erase call = t'.calls.erase call := by
      refine ExtTreeMap.ext_getElem? fun k => ?_
      rw [ExtTreeMap.getElem?_erase, ExtTreeMap.getElem?_erase]
      split
      · rfl
      next hne => exact hcalls k fun hk => hne (by simp [hk])
    unfold forget
    rw [hflights, herase, hlanded]

theorem forget_forget (t : Traffic ε) (call : Nat) : (t.forget call).forget call = t.forget call :=
  forget_eq_iff.mpr ⟨rfl, fun _ hne => calls_forget t hne, rfl⟩

theorem forget_setPhase (t : Traffic ε) (call other : Nat) (request : Request) (phase : Phase ε) :
    ((t.forget call).setPhase other request phase).forget call =
      (t.setPhase other request phase).forget call := by
  refine forget_eq_iff.mpr ⟨rfl, fun k hne => ?_, rfl⟩
  show ((t.forget call).calls.insert other _)[k]? = (t.calls.insert other _)[k]?
  rw [ExtTreeMap.getElem?_insert, ExtTreeMap.getElem?_insert, calls_forget t hne]

theorem forget_setPhase_self (t : Traffic ε) (call : Nat) (request : Request) (phase : Phase ε) :
    (t.setPhase call request phase).forget call = t.forget call := by
  refine forget_eq_iff.mpr ⟨rfl, fun k hne => ?_, rfl⟩
  show (t.calls.insert call _)[k]? = t.calls[k]?
  rw [ExtTreeMap.getElem?_insert, if_neg (by simpa using hne.symm)]

theorem forget_returns (t : Traffic ε) (call other : Nat) (request : Request)
    (result : Except ε String) (seconds : Float) :
    ((t.forget call).returns other request result seconds).forget call =
      (t.returns other request result seconds).forget call := by
  obtain ⟨_, hcalls, _⟩ := forget_eq_iff.mp (forget_setPhase t call other request (.returned result))
  exact forget_eq_iff.mpr ⟨rfl, hcalls, rfl⟩

theorem forget_returns_self (t : Traffic ε) (call : Nat) (request : Request)
    (result : Except ε String) (seconds : Float) :
    (t.returns call request result seconds).forget call = t.forget call := by
  obtain ⟨_, hcalls, _⟩ := forget_eq_iff.mp (forget_setPhase_self t call request (.returned result))
  exact forget_eq_iff.mpr ⟨rfl, hcalls, rfl⟩

theorem forget_lands (t : Traffic ε) (call : Nat) (scope : Scope) (flight : Nat)
    (html : Option String) :
    (t.forget call).lands scope flight html = (t.lands scope flight html).forget call := by
  unfold lands forget
  cases html with
  | none => rw [← Flights.abandon_resetDurations]
  | some html => rw [← Flights.deliver_resetDurations]

theorem forget_claims (t : Traffic ε) (call other : Nat) (request : Request) (seconds : Float) :
    ((t.forget call).claims other request seconds).forget call =
      (t.claims other request seconds).forget call := by
  have hclaim : (t.forget call).flights.claim request.scope =
      ((t.flights.claim request.scope).1, (t.flights.claim request.scope).2.resetDurations) :=
    Flights.claim_resetDurations t.flights request.scope
  unfold claims
  rw [hclaim]
  generalize t.flights.claim request.scope = answer
  obtain ⟨grant, flights⟩ := answer
  cases grant with
  | hit html => exact forget_returns {t with flights} call other request (.ok html) seconds
  | wait flight => exact forget_setPhase {t with flights} call other request (.waiting flight)
  | lead flight => exact forget_setPhase {t with flights} call other request (.leading flight)

/-- To the others, an event that does not name the call is the same whether or not the
call is there. -/
theorem step_forget (h : caller? e ≠ some call) :
    ((t.forget call).step e).forget call = (t.step e).forget call := by
  have hsame : ∀ {other}, caller? e = some other →
      (t.forget call).calls[other]? = t.calls[other]? := fun hother => calls_forget_caller h hother
  cases e with
  | arrive other request seconds =>
    simp only [step, ExtTreeMap.contains_eq_isSome_getElem?, hsame rfl]
    split
    · exact forget_forget t call
    · split
      · exact forget_claims t call other request seconds
      · exact forget_setPhase t call other request .viewing
  | viewEnds other outcome seconds =>
    simp only [step, hsame rfl]
    split
    · exact forget_returns t call other _ outcome seconds
    · rw [forget_lands]
      exact forget_returns _ call other _ outcome seconds
    · exact forget_forget t call
  | resume other seconds =>
    have hlanded : (t.forget call).landed = t.landed := rfl
    simp only [step, hsame rfl, hlanded]
    split
    · split
      · exact forget_returns t call other _ _ seconds
      · exact forget_claims t call other _ seconds
      · exact forget_forget t call
    · exact forget_forget t call
  | cancel other =>
    simp only [step, hsame rfl]
    split
    · exact forget_setPhase t call other _ .cancelled
    · exact forget_setPhase t call other _ .cancelled
    · rw [forget_lands]
      exact forget_setPhase _ call other _ .cancelled
    · exact forget_forget t call
  | invalidate scope => exact forget_forget (t.step (.invalidate scope)) call
  | clear => exact forget_forget (t.step .clear) call
  | resetDurations => exact forget_forget (t.step .resetDurations) call

theorem at_of_claimant {request : Request} (h : t.claimant? e = some (call, request)) :
    ∃ phase, (t.step e).At call request phase := by
  obtain ⟨seconds, hstep⟩ := step_of_claimant h
  rw [hstep]
  unfold claims
  generalize t.flights.claim request.scope = answer
  obtain ⟨grant, flights⟩ := answer
  cases grant with
  | hit html => exact ⟨_, at_setPhase_self {t with flights} call request _⟩
  | wait flight => exact ⟨_, at_setPhase_self {t with flights} call request _⟩
  | lead flight => exact ⟨_, at_setPhase_self {t with flights} call request _⟩

/-- An event that names a private call changes nothing to the others. -/
theorem step_forget_self (h : caller? e = some call)
    (hprivate : ∀ request phase, (after (es ++ [e])).At call request phase →
      request.isShared = false) :
    ((after es).step e).forget call = (after es).forget call := by
  -- A call that claims, leads or waits is shared, before the event and after it.
  have hbefore : ∀ {r p}, (after es).At call r p → r.isShared = false := by
    intro r p hat
    obtain ⟨p', hat'⟩ := hat.stays (List.prefix_append es [e])
    exact hprivate r p' hat'
  have hleads : ∀ {r flight}, ¬ (after es).At call r (.leading flight) := fun hat =>
    Bool.false_ne_true ((hbefore hat).symm.trans (leading_shared hat))
  have hwaits : ∀ {r flight}, ¬ (after es).At call r (.waiting flight) := fun hat =>
    Bool.false_ne_true ((hbefore hat).symm.trans (waiting_shared hat))
  have hclaims : ∀ {other r}, (after es).claimant? e ≠ some (other, r) := by
    intro other r hc
    obtain rfl := Option.some.inj ((caller_of_claimant hc).symm.trans h)
    obtain ⟨p, hat⟩ := at_of_claimant hc
    rw [← after_concat] at hat
    have hr := hprivate r p hat
    rw [Claims.shared ⟨e, happens_concat es e, hc⟩] at hr
    cases hr
  generalize ht : (after es).step e = t'
  have hturn := (after es).turn e
  rw [ht] at hturn
  cases hturn with
  | idle _ _ => rfl
  | view _ _ =>
    cases h
    exact forget_setPhase_self _ call _ _
  | viewed _ =>
    cases h
    exact forget_returns_self _ call _ _ _
  | hit hc _ => exact absurd hc hclaims
  | wait hc _ _ => exact absurd hc hclaims
  | lead hc _ _ => exact absurd hc hclaims
  | land hat =>
    cases h
    exact absurd hat hleads
  | served hat _ =>
    cases h
    exact absurd hat hwaits
  | leave _ _ =>
    cases h
    exact forget_setPhase_self _ call _ _
  | lose hat =>
    cases h
    exact absurd hat hleads
  | invalidate _ => cases h
  | clear => cases h
  | resetDurations => cases h

/-- To the others, the history without a private call comes to the same. -/
theorem after_without (hprivate : ∀ request phase, (after es).At call request phase →
    request.isShared = false) : (after es).forget call = (after (without es call)).forget call := by
  induction es using List.reverseRecOn with
  | nil => rfl
  | append_singleton es e ih =>
    have hbefore := ih fun r p hat => by
      obtain ⟨p', hat'⟩ := hat.stays (List.prefix_append es [e])
      exact hprivate r p' hat'
    rw [after_concat, without, List.filter_append]
    by_cases hnames : caller? e = some call
    · rw [step_forget_self hnames hprivate, hbefore]
      simp [hnames, without]
    · have hsingle : [e].filter (fun e => caller? e != some call) = [e] := by simp [hnames]
      rw [hsingle, after_concat, ← step_forget hnames, hbefore, step_forget hnames]
      rfl

theorem claimant_forget (h : caller? e ≠ some call) :
    (t.forget call).claimant? e = t.claimant? e := by
  have hsame : ∀ {other}, caller? e = some other →
      (t.forget call).calls[other]? = t.calls[other]? := fun hother => calls_forget_caller h hother
  cases e with
  | arrive other request seconds =>
    simp only [claimant?, ExtTreeMap.contains_eq_isSome_getElem?, hsame rfl]
  | resume other seconds =>
    have hlanded : (t.forget call).landed = t.landed := rfl
    simp only [claimant?, hsame rfl, hlanded]
  | _ => rfl

/-- The traffic with the call and the traffic without it are the same to the others: what is
stored, led, marked and landed, how the others stand, and what their claims come to. -/
structure Undisturbed (t t' : Traffic ε) (call : Nat) : Prop where
  cache : t.flights.cache = t'.flights.cache
  slots : t.flights.slots = t'.flights.slots
  lastFlight : t.flights.lastFlight = t'.flights.lastFlight
  landed : t.landed = t'.landed
  calls : ∀ other ≠ call, t.calls[other]? = t'.calls[other]?
  claimants : ∀ e, caller? e ≠ some call → t.claimant? e = t'.claimant? e
  grants : ∀ scope, (t.flights.claim scope).1 = (t'.flights.claim scope).1

theorem undisturbed_of_forget (h : t.forget call = t'.forget call) : Undisturbed t t' call := by
  obtain ⟨hflights, hcalls, hlanded⟩ := forget_eq_iff.mp h
  refine ⟨congrArg (·.cache) hflights, congrArg (·.slots) hflights,
    congrArg (·.lastFlight) hflights, hlanded, hcalls, fun e he => ?_, fun scope => ?_⟩
  · rw [← claimant_forget he, h, claimant_forget he]
  · have hgrant := congrArg (fun fs => (fs.claim scope).1) hflights
    simpa only [Flights.claim_resetDurations] using hgrant

/-! ### The call itself -/

section Arrival
variable {arrival : List (Event ε)} {request : Request} {seconds : Float}

theorem viewing_of_arrival (hnew : (after arrival).calls[call]? = none)
    (hr : request.isShared = false) (seconds : Float) :
    (after (arrival ++ [.arrive call request seconds])).At call request .viewing := by
  rw [after_concat, step_arrive_of_private hnew hr]
  exact at_setPhase_self _ call request .viewing

/-- Once a private call has arrived, whatever is known of it is known of that request. -/
theorem request_of_arrival (harrive : Happens es arrival (.arrive call request seconds))
    (hnew : (after arrival).calls[call]? = none) (hr : request.isShared = false) {r : Request}
    {phase : Phase ε} {past : List (Event ε)} (hpast : past <+: es)
    (h : (after past).At call r phase) : r = request := by
  obtain ⟨_, hat⟩ := (viewing_of_arrival hnew hr seconds).stays harrive
  obtain ⟨_, hat'⟩ := h.stays hpast
  exact (hat'.unique hat).1

/-- A private call starts its view when it arrives, and never again. -/
theorem starts_iff (harrive : Happens es arrival (.arrive call request seconds))
    (hnew : (after arrival).calls[call]? = none) (hr : request.isShared = false)
    (past : List (Event ε)) : Starts es past call ↔ past = arrival := by
  have hunknown : ∀ {r phase}, ¬ (after arrival).At call r phase := by
    intro r phase hat
    rw [At, hnew] at hat
    cases hat
  have hfirst := viewing_of_arrival (ε := ε) hnew hr seconds
  constructor
  · rintro ⟨e, r, he, hrenders, hnot⟩
    obtain ⟨p, hat, hp⟩ : ∃ p, (after (past ++ [e])).At call r p ∧ ¬ Over p := by
      rcases hrenders with hat | ⟨flight, hat⟩
      · exact ⟨_, hat, id⟩
      · exact ⟨_, hat, id⟩
    have hpast : ∀ {r' p'}, ¬ (after past).At call r' p' := by
      intro r' p' hat'
      obtain rfl := request_of_arrival harrive hnew hr he hat
      obtain rfl := request_of_arrival harrive hnew hr he.isPrefix hat'
      rcases private_phase hat' hr with rfl | hover
      · exact hnot (.inl hat')
      · have hstill := hat'.stays_of_over hover (List.prefix_append past [e])
        exact hp ((hat.unique hstill).2 ▸ hover)
    refine he.same harrive (fun hearlier => ?_) (fun hlater => ?_)
    · obtain ⟨_, hat'⟩ := hat.stays hearlier
      exact hunknown hat'
    · obtain ⟨_, hat'⟩ := hfirst.stays hlater
      exact hpast hat'
  · rintro rfl
    refine ⟨_, request, harrive, .inl hfirst, ?_⟩
    rintro (hat | ⟨flight, hat⟩)
    · exact hunknown hat
    · exact hunknown hat

end Arrival

/-- **Privacy.** For every history and every call in it that arrives for the tab scope, of
a first load, or for a context that keeps out of the cache: the call starts its own
view when it arrives and at no other moment; from then on it runs the view, unless it
has been cancelled or has returned, and it has returned a result exactly if its own
view gave it. Every stored view and every result of another call was given by a view
that some other call ran. And at every moment the traffic differs from that of the
history without the call in the call itself and in durations only. -/
theorem private_apart (es arrival : List (Event ε)) (call : Nat) (request : Request)
    (seconds : Float)
    (hprivate : request.scope = .tab ∨ request.kind = .initial ∨ request.caching = false)
    (harrive : Happens es arrival (.arrive call request seconds))
    (hnew : (after arrival).calls[call]? = none) :
    (∀ past, Starts es past call ↔ past = arrival) ∧
    (∃ phase, (after es).At call request phase ∧ (phase = .viewing ∨
      (phase = .cancelled ∧ ∃ past, Happens es past (.cancel call)) ∨
      ∃ result, phase = .returned result)) ∧
    (∀ result, (after es).At call request (.returned result) ↔ Gives es call request result) ∧
    (∀ scope kind html, (after es).flights.cache.get? scope kind = some html →
      ∃ giver r, giver ≠ call ∧ r.scope = scope ∧ Gives es giver r (.ok html)) ∧
    (∀ other r result, other ≠ call → (after es).At other r (.returned result) →
      ∃ giver r', giver ≠ call ∧ r'.scope = r.scope ∧ Gives es giver r' result) ∧
    ∀ past, past <+: es → Undisturbed (after past) (after (without past call)) call := by
  have hr := request.not_isShared_iff.mpr hprivate
  have hrequest : ∀ {past r phase}, past <+: es → (after past).At call r phase → r = request :=
    fun hpast hat => request_of_arrival harrive hnew hr hpast hat
  -- A shared call is another one.
  have hother : ∀ {giver r result}, Gives es giver r result → r.isShared = true →
      giver ≠ call := by
    rintro giver r result hgives hshared rfl
    rw [hrequest (List.prefix_refl es) hgives.stays, hr] at hshared
    cases hshared
  refine ⟨starts_iff harrive hnew hr, ?_, fun result => ⟨fun h => gives_of_private h hr, Gives.stays⟩,
    ?_, ?_, ?_⟩
  · obtain ⟨phase, hat⟩ := (viewing_of_arrival hnew hr seconds).stays harrive
    refine ⟨phase, hat, ?_⟩
    rcases private_phase hat hr with rfl | hover
    · exact .inl rfl
    · cases phase with
      | returned result => exact .inr (.inr ⟨result, rfl⟩)
      | cancelled => exact .inr (.inl ⟨rfl, cancelled_from hat⟩)
      | _ => exact hover.elim
  · intro scope kind html hview
    obtain ⟨giver, r, hscope, hgives, hshared⟩ := view_gives hview
    exact ⟨giver, r, hother hgives hshared, hscope, hgives⟩
  · intro other r result hne hat
    obtain ⟨giver, r', hscope, hgives, hgiver⟩ := returned_gives hat
    refine ⟨giver, r', ?_, hscope, hgives⟩
    rcases hgiver with rfl | hshared
    · exact hne
    · exact hother hgives hshared
  · intro past hpast
    refine undisturbed_of_forget (after_without fun r phase hat => ?_)
    rw [hrequest hpast hat, hr]

/-- A context that keeps out of the cache renders the global scope for itself while
another call leads it and a third waits; it is done before the leader. -/
def aside : List (Event String) :=
  [.arrive 0 globalUpdate 0.0, .arrive 1 ⟨.global, .update, false⟩ 0.0,
    .arrive 2 globalUpdate 0.0, .viewEnds 1 (.ok "mine") 0.0, .viewEnds 0 (.ok "ours") 0.0,
    .resume 2 0.0]

/-- It returns its own view; the scope and the waiter have the leader's, as they have
without it. -/
theorem private_apart_aside :
    (⟨.global, .update, false⟩ : Request).caching = false ∧
      Happens aside (aside.take 1) (.arrive 1 ⟨.global, .update, false⟩ 0.0) ∧
      (after (aside.take 1)).calls[1]? = none ∧
      (∀ past, Starts aside past 1 ↔ past = aside.take 1) ∧
      Gives aside 1 ⟨.global, .update, false⟩ (.ok "mine") ∧
      (after aside).At 2 globalUpdate (.returned (.ok "ours")) ∧
      (after (without aside 1)).flights.cache.get? .global .update = some "ours" ∧
      Undisturbed (after aside) (after (without aside 1)) 1 := by
  have harrive : Happens aside (aside.take 1) (.arrive 1 ⟨.global, .update, false⟩ 0.0) := ⟨_, rfl⟩
  obtain ⟨hstarts, _, hreturned, _, _, hsame⟩ :=
    private_apart aside (aside.take 1) 1 _ 0.0 (.inr (.inr rfl)) harrive rfl
  exact ⟨rfl, harrive, rfl, hstarts, (hreturned (.ok "mine")).mp rfl, rfl, rfl,
    hsame aside (List.prefix_refl aside)⟩

end Traffic
end SharedViews

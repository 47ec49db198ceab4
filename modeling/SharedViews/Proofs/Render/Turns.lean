import SharedViews.Proofs.Render.Slots
import SharedViews.Render.Traffic

/-! What one event can do to the traffic.

`Turn` lists everything an event does, guards included, and `turn` says that every
step is one of these. Nothing later opens `step`: what a call, a scope or a flight
goes through in one step is read off the turns once, below (`moves`, `shifts`,
`landings`), and the invariants over whole histories follow from those. -/
namespace SharedViews.Traffic
open Std
variable {ε : Type}

/-- The call that claims its scope with the event, and what it asks for. A call
claims when it arrives and is shared, and again when the flight it waits for has
been lost. -/
def claimant? (t : Traffic ε) : Event ε → Option (Nat × Request)
  | .arrive call request _ =>
    if !t.calls.contains call && request.isShared then some (call, request) else none
  | .resume call _ =>
    match t.calls[call]? with
    | some ⟨request, .waiting flight⟩ =>
      if t.landed[flight]? = some none then some (call, request) else none
    | _ => none
  | _ => none

/-- Whether the event drops what the scope holds and makes its flight stale. -/
def drops (scope : Scope) : Event ε → Bool
  | .invalidate other => other == scope
  | .clear => true
  | _ => false

/-- The call has come to this phase of the request. -/
def At (t : Traffic ε) (call : Nat) (request : Request) (phase : Phase ε) : Prop :=
  t.calls[call]? = some ⟨request, phase⟩

theorem claimant_cases {t : Traffic ε} {e : Event ε} {call : Nat} {request : Request}
    (h : t.claimant? e = some (call, request)) :
    (∃ seconds, e = .arrive call request seconds ∧ t.calls[call]? = none ∧
      request.isShared = true) ∨
    ∃ seconds flight, e = .resume call seconds ∧ t.At call request (.waiting flight) ∧
      t.landed[flight]? = some none := by
  cases e with
  | arrive c r seconds =>
    simp only [claimant?] at h
    split at h
    next hnew =>
      simp only [Option.some.injEq, Prod.mk.injEq] at h
      obtain ⟨rfl, rfl⟩ := h
      simp only [Bool.and_eq_true, Bool.not_eq_true'] at hnew
      exact .inl ⟨seconds, rfl, ExtTreeMap.getElem?_eq_none_of_contains_eq_false hnew.1, hnew.2⟩
    next => cases h
  | resume c seconds =>
    simp only [claimant?] at h
    split at h
    next r flight hat =>
      split at h
      next hl =>
        simp only [Option.some.injEq, Prod.mk.injEq] at h
        obtain ⟨rfl, rfl⟩ := h
        exact .inr ⟨seconds, flight, rfl, hat, hl⟩
      next => cases h
    next => cases h
  | _ => cases h

theorem At.unique {t : Traffic ε} {call : Nat} {r r' : Request} {p p' : Phase ε}
    (h : t.At call r p) (h' : t.At call r' p') : r = r' ∧ p = p' := by
  have heq := h.symm.trans h'
  simpa using heq

inductive Turn (t : Traffic ε) : Event ε → Traffic ε → Prop
  /-- The event does not apply to the call it names. -/
  | idle {e : Event ε} (hc : t.claimant? e = none) (he : ∀ scope, drops scope e = false) :
      Turn t e t
  | view {call : Nat} {request : Request} {seconds : Float} (hnew : t.calls[call]? = none)
      (hr : request.isShared = false) :
      Turn t (.arrive call request seconds) (t.setPhase call request .viewing)
  | viewed {call : Nat} {request : Request} {outcome : Except ε String} {seconds : Float}
      (h : t.At call request .viewing) :
      Turn t (.viewEnds call outcome seconds) (t.returns call request outcome seconds)
  | hit {e : Event ε} {call : Nat} {request : Request} {html : String} {seconds : Float}
      (hc : t.claimant? e = some (call, request))
      (hview : t.flights.view? request.scope = some html) :
      Turn t e (t.returns call request (.ok html) seconds)
  | wait {e : Event ε} {call : Nat} {request : Request} {flight : Nat}
      (hc : t.claimant? e = some (call, request))
      (hview : t.flights.view? request.scope = none)
      (hopen : t.flights.Open request.scope flight) :
      Turn t e (t.setPhase call request (.waiting flight))
  | lead {e : Event ε} {call : Nat} {request : Request}
      (hc : t.claimant? e = some (call, request))
      (hview : t.flights.view? request.scope = none)
      (hclosed : ∀ flight, ¬ t.flights.Open request.scope flight) :
      Turn t e (setPhase {t with flights := t.flights.start request.scope} call request
        (.leading (t.flights.lastFlight + 1)))
  | land {call : Nat} {request : Request} {flight : Nat} {outcome : Except ε String}
      {seconds : Float} (h : t.At call request (.leading flight)) :
      Turn t (.viewEnds call outcome seconds)
        ((t.lands request.scope flight outcome.toOption).returns call request outcome seconds)
  | served {call : Nat} {request : Request} {flight : Nat} {html : String} {seconds : Float}
      (h : t.At call request (.waiting flight)) (hl : t.landed[flight]? = some (some html)) :
      Turn t (.resume call seconds) (t.returns call request (.ok html) seconds)
  | leave {call : Nat} {request : Request} {phase : Phase ε} (h : t.At call request phase)
      (hp : phase = .viewing ∨ ∃ flight, phase = .waiting flight) :
      Turn t (.cancel call) (t.setPhase call request .cancelled)
  | lose {call : Nat} {request : Request} {flight : Nat}
      (h : t.At call request (.leading flight)) :
      Turn t (.cancel call) ((t.lands request.scope flight none).setPhase call request .cancelled)
  | invalidate (scope : Scope) :
      Turn t (.invalidate scope) {t with flights := t.flights.invalidate scope}
  | clear : Turn t .clear {t with flights := t.flights.clear}
  | resetDurations : Turn t .resetDurations {t with flights := t.flights.resetDurations}

/-! ### Every step is a turn -/

theorem claims_turn (t : Traffic ε) (e : Event ε) (call : Nat) (request : Request)
    (seconds : Float) (hc : t.claimant? e = some (call, request)) :
    Turn t e (t.claims call request seconds) := by
  unfold claims
  cases hview : t.flights.view? request.scope with
  | some html =>
    rw [Flights.claim_hit hview]
    exact .hit hc hview
  | none =>
    cases hjoin : t.flights.joinable request.scope with
    | some flight =>
      rw [Flights.claim_wait hview hjoin]
      exact .wait hc hview (Flights.joinable_eq_some hjoin)
    | none =>
      rw [Flights.claim_lead hview hjoin]
      refine .lead hc hview fun flight hopen => ?_
      rw [hopen.joinable] at hjoin
      cases hjoin

theorem arrive_turn (t : Traffic ε) (call : Nat) (request : Request) (seconds : Float) :
    Turn t (.arrive call request seconds) (t.step (.arrive call request seconds)) := by
  simp only [step]
  by_cases hnew : t.calls.contains call = true
  · rw [if_pos hnew]
    exact .idle (by simp [claimant?, hnew]) fun _ => rfl
  · rw [if_neg hnew]
    by_cases hr : request.isShared = true
    · rw [if_pos hr]
      exact claims_turn t _ call request seconds (by simp [claimant?, hnew, hr])
    · rw [if_neg hr]
      exact .view (by simpa using hnew) (by simpa using hr)

theorem viewEnds_turn (t : Traffic ε) (call : Nat) (outcome : Except ε String) (seconds : Float) :
    Turn t (.viewEnds call outcome seconds) (t.step (.viewEnds call outcome seconds)) := by
  simp only [step]
  split
  next request h => exact .viewed h
  next request flight h => exact .land h
  next => exact .idle rfl fun _ => rfl

theorem resume_turn (t : Traffic ε) (call : Nat) (seconds : Float) :
    Turn t (.resume call seconds) (t.step (.resume call seconds)) := by
  simp only [step]
  split
  next request flight h =>
    split
    next html hl => exact .served h hl
    next hl => exact claims_turn t _ call request seconds (by simp [claimant?, h, hl])
    next hl => exact .idle (by simp [claimant?, h, hl]) fun _ => rfl
  next => exact .idle (by simp only [claimant?]) fun _ => rfl

theorem cancel_turn (t : Traffic ε) (call : Nat) :
    Turn t (.cancel call) (t.step (.cancel call)) := by
  simp only [step]
  split
  next request h => exact .leave h (.inl rfl)
  next request flight h => exact .leave h (.inr ⟨flight, rfl⟩)
  next request flight h => exact .lose h
  next => exact .idle rfl fun _ => rfl

theorem turn (t : Traffic ε) (e : Event ε) : Turn t e (t.step e) := by
  cases e with
  | arrive call request seconds => exact arrive_turn t call request seconds
  | viewEnds call outcome seconds => exact viewEnds_turn t call outcome seconds
  | resume call seconds => exact resume_turn t call seconds
  | cancel call => exact cancel_turn t call
  | invalidate scope => exact .invalidate scope
  | clear => exact .clear
  | resetDurations => exact .resetDurations

/-! ### What a call goes through -/

/-- How the event brings the call to a phase. -/
inductive Moves (t : Traffic ε) : Event ε → Nat → Request → Phase ε → Prop
  | view {call : Nat} {request : Request} {seconds : Float} (hnew : t.calls[call]? = none)
      (hr : request.isShared = false) :
      Moves t (.arrive call request seconds) call request .viewing
  | viewed {call : Nat} {request : Request} {outcome : Except ε String} {seconds : Float}
      (h : t.At call request .viewing) :
      Moves t (.viewEnds call outcome seconds) call request (.returned outcome)
  | hit {e : Event ε} {call : Nat} {request : Request} {html : String}
      (hc : t.claimant? e = some (call, request))
      (hview : t.flights.view? request.scope = some html) :
      Moves t e call request (.returned (.ok html))
  | wait {e : Event ε} {call : Nat} {request : Request} {flight : Nat}
      (hc : t.claimant? e = some (call, request))
      (hopen : t.flights.Open request.scope flight) :
      Moves t e call request (.waiting flight)
  | lead {e : Event ε} {call : Nat} {request : Request}
      (hc : t.claimant? e = some (call, request))
      (hview : t.flights.view? request.scope = none)
      (hclosed : ∀ flight, ¬ t.flights.Open request.scope flight)
      (hopen : (t.step e).flights.Open request.scope (t.flights.lastFlight + 1))
      (hlast : (t.step e).flights.lastFlight = t.flights.lastFlight + 1) :
      Moves t e call request (.leading (t.flights.lastFlight + 1))
  | land {call : Nat} {request : Request} {flight : Nat} {outcome : Except ε String}
      {seconds : Float} (h : t.At call request (.leading flight)) :
      Moves t (.viewEnds call outcome seconds) call request (.returned outcome)
  | served {call : Nat} {request : Request} {flight : Nat} {html : String} {seconds : Float}
      (h : t.At call request (.waiting flight)) (hl : t.landed[flight]? = some (some html)) :
      Moves t (.resume call seconds) call request (.returned (.ok html))
  | drop {call : Nat} {request : Request} {phase : Phase ε} (h : t.At call request phase) :
      Moves t (.cancel call) call request .cancelled

theorem at_setPhase {t : Traffic ε} {call other : Nat} {request r : Request} {phase p : Phase ε}
    (h : (t.setPhase call request phase).At other r p) :
    (other = call ∧ r = request ∧ p = phase) ∨ (other ≠ call ∧ t.At other r p) := by
  have hget : (t.calls.insert call ⟨request, phase⟩)[other]? = some ⟨r, p⟩ := h
  rw [ExtTreeMap.getElem?_insert] at hget
  by_cases hcall : other = call
  · subst hcall
    rw [if_pos compare_self] at hget
    simp only [Option.some.injEq, Call.mk.injEq] at hget
    exact .inl ⟨rfl, hget.1.symm, hget.2.symm⟩
  · rw [if_neg (by simpa using Ne.symm hcall)] at hget
    exact .inr ⟨hcall, hget⟩

/-- A call is where it was, and has not claimed, or the event moved it there. -/
def Told (t : Traffic ε) (e : Event ε) (call : Nat) (request : Request) (phase : Phase ε) : Prop :=
  (t.At call request phase ∧ ∀ r, t.claimant? e ≠ some (call, r)) ∨ Moves t e call request phase

/-- A turn that sets the phase of one call, the only one that may claim with it. -/
theorem told_setPhase {t t' : Traffic ε} {e : Event ε} {call other : Nat} {request r : Request}
    {phase p : Phase ε} (h : (t'.setPhase other r p).At call request phase)
    (hcalls : t'.calls = t.calls)
    (hclaim : ∀ r', t.claimant? e = some (call, r') → call = other) (hmove : Moves t e other r p) :
    Told t e call request phase := by
  rcases at_setPhase h with ⟨rfl, rfl, rfl⟩ | ⟨hne, hat⟩
  · exact .inr hmove
  · refine .inl ⟨?_, fun r' hc => hne (hclaim r' hc)⟩
    unfold At at hat ⊢
    rwa [hcalls] at hat

theorem claimant_unique {t : Traffic ε} {e : Event ε} {call other : Nat} {request : Request}
    (h : t.claimant? e = some (other, request)) (r : Request)
    (h' : t.claimant? e = some (call, r)) : call = other := by
  have hpair := h'.symm.trans h
  simp only [Option.some.injEq, Prod.mk.injEq] at hpair
  exact hpair.1

theorem moves {t : Traffic ε} {e : Event ε} {call : Nat} {request : Request} {phase : Phase ε}
    (h : (t.step e).At call request phase) : Told t e call request phase := by
  generalize ht : t.step e = t' at h
  have hturn := t.turn e
  rw [ht] at hturn
  cases hturn with
  | idle hc _ => exact .inl ⟨h, fun r hr => by rw [hc] at hr; cases hr⟩
  | view hnew hr =>
    refine told_setPhase h rfl ?_ (.view hnew hr)
    intro r' hc
    simp only [claimant?, hr, Bool.and_false] at hc
    cases hc
  | viewed hat => exact told_setPhase h rfl (fun _ hc => by cases hc) (.viewed hat)
  | hit hc hview => exact told_setPhase h rfl (claimant_unique hc) (.hit hc hview)
  | wait hc _ hopen => exact told_setPhase h rfl (claimant_unique hc) (.wait hc hopen)
  | @lead _ other request hc hview hclosed =>
    refine told_setPhase h rfl (claimant_unique hc) (.lead hc hview hclosed ?_ (by rw [ht]; rfl))
    rw [ht]
    show (t.flights.start request.scope).slots[request.scope]? = _
    rw [Flights.slots_start, if_pos rfl]
  | land hat => exact told_setPhase h rfl (fun _ hc => by cases hc) (.land hat)
  | served hat hl =>
    refine told_setPhase h rfl ?_ (.served hat hl)
    intro r' hc
    unfold At at hat
    simp [claimant?, hat, hl] at hc
  | leave hat _ => exact told_setPhase h rfl (fun _ hc => by cases hc) (.drop hat)
  | lose hat => exact told_setPhase h rfl (fun _ hc => by cases hc) (.drop hat)
  | invalidate scope => exact .inl ⟨h, fun _ hc => by cases hc⟩
  | clear => exact .inl ⟨h, fun _ hc => by cases hc⟩
  | resetDurations => exact .inl ⟨h, fun _ hc => by cases hc⟩

/-! ### What a scope goes through -/

/-- How the event brings the flights to have the scope's slot and view. -/
inductive Shifts (t : Traffic ε) (e : Event ε) (scope : Scope) (fs : Flights) : Prop
  | keep (he : drops scope e = false) (hslot : fs.slots[scope]? = t.flights.slots[scope]?)
      (hview : fs.view? scope = t.flights.view? scope)
  | start {call : Nat} {request : Request} (hc : t.claimant? e = some (call, request))
      (hscope : request.scope = scope) (hnone : t.flights.view? scope = none)
      (hclosed : ∀ flight, ¬ t.flights.Open scope flight)
      (hopen : fs.Open scope (t.flights.lastFlight + 1))
      (hlead : (t.step e).At call request (.leading (t.flights.lastFlight + 1)))
      (hview : fs.view? scope = none)
  | land {call : Nat} {request : Request} {flight : Nat} (he : drops scope e = false)
      (hat : t.At call request (.leading flight)) (hscope : request.scope = scope)
      (hslot : fs.slots[scope]? =
        if t.flights.owns scope flight = true then none else t.flights.slots[scope]?)
      (hend : ∀ f, ¬ (t.step e).At call request (.leading f))
      (hview : fs.view? scope = t.flights.view? scope ∨
        ∃ html seconds, e = .viewEnds call (.ok html) seconds ∧
          t.flights.Open scope flight ∧ fs.view? scope = some html)
  | drop (he : drops scope e = true)
      (hslot : fs.slots[scope]? =
        t.flights.slots[scope]?.map fun flight => {flight with stale := true})
      (hview : fs.view? scope = none)

theorem drops_of_claimant {t : Traffic ε} {e : Event ε} {c : Nat × Request} (scope : Scope)
    (hc : t.claimant? e = some c) : drops scope e = false := by
  cases e with
  | invalidate other => cases hc
  | clear => cases hc
  | _ => rfl

theorem slots_lands (t : Traffic ε) (scope other : Scope) (flight : Nat) (html : Option String) :
    (t.lands scope flight html).flights.slots[other]? =
      if scope = other ∧ t.flights.owns scope flight = true then none
      else t.flights.slots[other]? := by
  cases html with
  | none => exact Flights.slots_abandon t.flights scope other flight
  | some html =>
    show (t.flights.deliver scope flight html).slots[other]? = _
    rw [Flights.slots_deliver]
    exact Flights.slots_abandon t.flights scope other flight

theorem view?_lands_of_ne (t : Traffic ε) {scope other : Scope} (flight : Nat)
    (html : Option String) (h : scope ≠ other) :
    (t.lands scope flight html).flights.view? other = t.flights.view? other := by
  cases html with
  | none => exact Flights.view?_abandon t.flights scope other flight
  | some html =>
    show (t.flights.deliver scope flight html).view? other = _
    by_cases hopen : t.flights.Open scope flight
    · rw [Flights.deliver_of_open html hopen]
      show ((t.flights.abandon scope flight).cache.set scope html .update).get? other .update = _
      rw [RenderedViews.get?_set, if_neg fun hall => h hall.2.1]
      exact Flights.view?_abandon t.flights scope other flight
    · exact Flights.view?_deliver_of_not_open html other hopen

theorem view?_lands (t : Traffic ε) (scope : Scope) (flight : Nat) (html : Option String) :
    (t.lands scope flight html).flights.view? scope = t.flights.view? scope ∨
      ∃ h, html = some h ∧ t.flights.Open scope flight ∧
        (t.lands scope flight html).flights.view? scope = some h := by
  cases html with
  | none => exact .inl (Flights.view?_abandon t.flights scope scope flight)
  | some html =>
    show (t.flights.deliver scope flight html).view? scope = _ ∨
      ∃ h, some html = some h ∧ t.flights.Open scope flight ∧
        (t.flights.deliver scope flight html).view? scope = some h
    by_cases hopen : t.flights.Open scope flight
    · by_cases hshared : scope.isShared = true
      · refine .inr ⟨html, rfl, hopen, ?_⟩
        rw [Flights.view?_deliver_of_open html scope hshared hopen, if_pos rfl]
      · left
        rw [Flights.deliver_of_open html hopen]
        show ((t.flights.abandon scope flight).cache.set scope html .update).get? scope .update = _
        rw [RenderedViews.get?_set, if_neg fun hall => hshared hall.1]
        exact Flights.view?_abandon t.flights scope scope flight
    · exact .inl (Flights.view?_deliver_of_not_open html scope hopen)

/-- After a call of the scope landed its flight. -/
theorem shifts_land {t t' : Traffic ε} {e : Event ε} {scope : Scope} {call : Nat}
    {request : Request} {flight : Nat} (html : Option String) (he : drops scope e = false)
    (hat : t.At call request (.leading flight))
    (hslots : t'.flights.slots = (t.lands request.scope flight html).flights.slots)
    (hcache : t'.flights.cache = (t.lands request.scope flight html).flights.cache)
    (hend : ∀ f, ¬ (t.step e).At call request (.leading f))
    (hok : ∀ h, html = some h → ∃ seconds, e = .viewEnds call (.ok h) seconds) :
    Shifts t e scope t'.flights := by
  have hview : ∀ s, t'.flights.view? s = (t.lands request.scope flight html).flights.view? s := by
    intro s
    unfold Flights.view?
    rw [hcache]
  by_cases hscope : request.scope = scope
  · subst hscope
    refine .land he hat rfl ?_ hend ?_
    · rw [hslots, slots_lands]
      simp
    · rw [hview]
      rcases t.view?_lands request.scope flight html with h | ⟨h, rfl, hopen, hset⟩
      · exact .inl h
      · obtain ⟨seconds, rfl⟩ := hok h rfl
        exact .inr ⟨h, seconds, rfl, hopen, hset⟩
  · refine .keep he ?_ ?_
    · rw [hslots, slots_lands, if_neg fun hall => hscope hall.1]
    · rw [hview, view?_lands_of_ne t flight html hscope]

theorem at_setPhase_self (t : Traffic ε) (call : Nat) (request : Request) (phase : Phase ε) :
    (t.setPhase call request phase).At call request phase := by
  simp [At, setPhase]

/-- What a step does to one scope's slot and view. -/
theorem shifts (t : Traffic ε) (e : Event ε) (scope : Scope) :
    Shifts t e scope (t.step e).flights := by
  generalize ht : t.step e = t'
  have hturn := t.turn e
  rw [ht] at hturn
  cases hturn with
  | idle _ he => exact .keep (he scope) rfl rfl
  | view hnew hr => exact .keep rfl rfl rfl
  | viewed hat => exact .keep rfl rfl rfl
  | hit hc hview => exact .keep (drops_of_claimant scope hc) rfl rfl
  | wait hc _ hopen => exact .keep (drops_of_claimant scope hc) rfl rfl
  | @lead _ call request hc hview hclosed =>
    by_cases hscope : request.scope = scope
    · subst hscope
      refine .start hc rfl hview hclosed ?_ ?_ hview
      · show (t.flights.start request.scope).slots[request.scope]? = _
        rw [Flights.slots_start, if_pos rfl]
      · rw [ht]
        exact at_setPhase_self _ call request _
    · refine .keep (drops_of_claimant scope hc) ?_ rfl
      show (t.flights.start request.scope).slots[scope]? = _
      rw [Flights.slots_start, if_neg hscope]
  | @land call request flight outcome seconds hat =>
    refine shifts_land outcome.toOption rfl hat rfl rfl ?_ ?_
    · intro f hf
      rw [ht] at hf
      have hphase := (at_setPhase_self _ call request (.returned outcome)).unique hf
      cases hphase.2
    · intro h houtcome
      cases outcome with
      | error cause => cases houtcome
      | ok html =>
        cases houtcome
        exact ⟨seconds, rfl⟩
  | served hat hl => exact .keep rfl rfl rfl
  | leave _ _ => exact .keep rfl rfl rfl
  | @lose call request flight hat =>
    refine shifts_land none rfl hat rfl rfl ?_ ?_
    · intro f hf
      rw [ht] at hf
      have hphase := (at_setPhase_self _ call request .cancelled).unique hf
      cases hphase.2
    · intro h hnone
      cases hnone
  | invalidate other =>
    by_cases hs : other = scope
    · subst hs
      refine .drop (by simp [drops]) ?_ ?_
      · show (t.flights.invalidate other).slots[other]? = _
        rw [Flights.slots_invalidate, if_pos rfl]
      · show (t.flights.invalidate other).view? other = none
        rw [Flights.view?_invalidate, if_pos rfl]
    · refine .keep (by simp [drops, hs]) ?_ ?_
      · show (t.flights.invalidate other).slots[scope]? = _
        rw [Flights.slots_invalidate, if_neg hs]
      · show (t.flights.invalidate other).view? scope = _
        rw [Flights.view?_invalidate, if_neg hs]
  | clear => exact .drop rfl (Flights.slots_clear t.flights scope) (Flights.view?_clear t.flights scope)
  | resetDurations => exact .keep rfl rfl rfl

/-! ### What a flight goes through -/

theorem isShared_scope {request : Request} (h : request.isShared = true) :
    request.scope.isShared = true := by
  simp only [Request.isShared, Bool.and_eq_true] at h
  exact h.1.1

theorem step_viewEnds_of_leading {t : Traffic ε} {call flight : Nat} {request : Request}
    (h : t.At call request (.leading flight)) (outcome : Except ε String) (seconds : Float) :
    t.step (.viewEnds call outcome seconds) =
      (t.lands request.scope flight outcome.toOption).returns call request outcome seconds := by
  unfold At at h
  simp only [step, h]

/-- A leader whose view ends has returned what the view gave. -/
theorem at_step_viewEnds {t : Traffic ε} {call flight : Nat} {request : Request}
    (h : t.At call request (.leading flight)) (outcome : Except ε String) (seconds : Float) :
    (t.step (.viewEnds call outcome seconds)).At call request (.returned outcome) := by
  rw [step_viewEnds_of_leading h]
  exact at_setPhase_self _ call request _

/-- The view of a leader that has the open slot is stored. -/
theorem view?_step_viewEnds {t : Traffic ε} {call flight : Nat} {request : Request}
    (h : t.At call request (.leading flight)) (hopen : t.flights.Open request.scope flight)
    (hshared : request.isShared = true) (html : String) (seconds : Float) :
    (t.step (.viewEnds call (.ok html) seconds)).flights.view? request.scope = some html := by
  rw [step_viewEnds_of_leading h]
  show (t.flights.deliver request.scope flight html).view? request.scope = some html
  rw [Flights.view?_deliver_of_open html request.scope (isShared_scope hshared) hopen, if_pos rfl]

theorem lastFlight_lands (t : Traffic ε) (scope : Scope) (flight : Nat) (html : Option String) :
    (t.lands scope flight html).flights.lastFlight = t.flights.lastFlight := by
  cases html with
  | none => exact Flights.lastFlight_abandon t.flights scope flight
  | some html => exact Flights.lastFlight_deliver t.flights scope flight html

/-- Numbers are given in order, and only to a call that leads. -/
theorem lastFlight_step (t : Traffic ε) (e : Event ε) :
    t.flights.lastFlight ≤ (t.step e).flights.lastFlight := by
  generalize ht : t.step e = t'
  have hturn := t.turn e
  rw [ht] at hturn
  cases hturn with
  | lead _ _ _ => exact Nat.le_succ t.flights.lastFlight
  | land _ => exact Nat.le_of_eq (lastFlight_lands t _ _ _).symm
  | lose _ => exact Nat.le_of_eq (lastFlight_lands t _ _ none).symm
  | _ => exact Nat.le_refl _

/-- How the event lands a flight: the leader's view ends, or its call is cancelled. -/
inductive Landing (t : Traffic ε) : Event ε → Nat → Option String → Prop
  | viewEnds {call : Nat} {request : Request} {flight : Nat} {outcome : Except ε String}
      {seconds : Float} (h : t.At call request (.leading flight)) :
      Landing t (.viewEnds call outcome seconds) flight outcome.toOption
  | cancel {call : Nat} {request : Request} {flight : Nat}
      (h : t.At call request (.leading flight)) : Landing t (.cancel call) flight none

theorem landed_insert {t : Traffic ε} {f flight : Nat} {html outcome : Option String}
    (h : (t.landed.insert f html)[flight]? = some outcome) :
    t.landed[flight]? = some outcome ∨ (f = flight ∧ html = outcome) := by
  rw [ExtTreeMap.getElem?_insert] at h
  by_cases hf : f = flight
  · subst hf
    rw [if_pos compare_self] at h
    exact .inr ⟨rfl, Option.some.inj h⟩
  · rw [if_neg (by simpa using hf)] at h
    exact .inl h

theorem landing {t : Traffic ε} {e : Event ε} {flight : Nat} {outcome : Option String}
    (h : (t.step e).landed[flight]? = some outcome) :
    t.landed[flight]? = some outcome ∨ Landing t e flight outcome := by
  generalize ht : t.step e = t' at h
  have hturn := t.turn e
  rw [ht] at hturn
  cases hturn with
  | land hat =>
    rcases landed_insert h with hold | ⟨rfl, rfl⟩
    · exact .inl hold
    · exact .inr (.viewEnds hat)
  | lose hat =>
    rcases landed_insert h with hold | ⟨rfl, rfl⟩
    · exact .inl hold
    · exact .inr (.cancel hat)
  | _ => exact .inl h

/-- A flight has landed with a view when its leader's view ended with it. -/
theorem landings {t : Traffic ε} {e : Event ε} {flight : Nat} {html : String}
    (h : (t.step e).landed[flight]? = some (some html)) :
    t.landed[flight]? = some (some html) ∨ ∃ call request seconds,
      t.At call request (.leading flight) ∧ e = .viewEnds call (.ok html) seconds := by
  rcases landing h with hold | hnew
  · exact .inl hold
  · generalize hsome : some html = outcome at hnew
    cases hnew with
    | @viewEnds call request _ result seconds hat =>
      cases result with
      | error cause => cases hsome
      | ok out =>
        cases hsome
        exact .inr ⟨call, request, seconds, hat, rfl⟩
    | cancel hat => cases hsome

end SharedViews.Traffic

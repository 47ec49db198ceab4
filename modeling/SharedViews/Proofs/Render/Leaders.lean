import SharedViews.Proofs.Render.SingleFlight

/-! Leaders and their flights.

Once started, a flight is led by the call that started it until it has landed, and
never both (`Leads.stage`, `not_leading_of_landed`); a call that has led does not
claim again, so it leads at most once (`Leads.once`). The flight in a slot is one that
is being led for the slot's scope (`leader_of_slot`), and it is the latest that was
started for the scope (`Leads.le_slot`). -/
namespace SharedViews.Traffic
open Std
variable {ε : Type} {es : List (Event ε)} {t : Traffic ε} {e : Event ε}

/-! ### What an event leaves alone -/

/-- The call that the event names. -/
def caller? : Event ε → Option Nat
  | .arrive call _ _ | .viewEnds call _ _ | .resume call _ | .cancel call => some call
  | .invalidate _ | .clear | .resetDurations => none

/-- The call has come to its end. -/
def Over : Phase ε → Prop
  | .returned _ | .cancelled => True
  | _ => False

theorem caller_of_claimant {call : Nat} {request : Request}
    (h : t.claimant? e = some (call, request)) : caller? e = some call := by
  rcases claimant_cases h with ⟨_, rfl, _⟩ | ⟨_, _, rfl, _⟩
  · rfl
  · rfl

/-- An event that claims nothing may leave all calls alone; else it sets the phase of
the call it names. -/
theorem calls_step (t : Traffic ε) (e : Event ε) :
    ((t.step e).calls = t.calls ∧ t.claimant? e = none) ∨
      ∃ call request phase, caller? e = some call ∧
        (t.step e).calls = t.calls.insert call ⟨request, phase⟩ := by
  generalize ht : t.step e = t'
  have hturn := t.turn e
  rw [ht] at hturn
  cases hturn with
  | idle hc _ => exact .inl ⟨rfl, hc⟩
  | view _ _ => exact .inr ⟨_, _, _, rfl, rfl⟩
  | viewed _ => exact .inr ⟨_, _, _, rfl, rfl⟩
  | hit hc _ => exact .inr ⟨_, _, _, caller_of_claimant hc, rfl⟩
  | wait hc _ _ => exact .inr ⟨_, _, _, caller_of_claimant hc, rfl⟩
  | lead hc _ _ => exact .inr ⟨_, _, _, caller_of_claimant hc, rfl⟩
  | land _ => exact .inr ⟨_, _, _, rfl, rfl⟩
  | served _ _ => exact .inr ⟨_, _, _, rfl, rfl⟩
  | leave _ _ => exact .inr ⟨_, _, _, rfl, rfl⟩
  | lose _ => exact .inr ⟨_, _, _, rfl, rfl⟩
  | invalidate _ => exact .inl ⟨rfl, rfl⟩
  | clear => exact .inl ⟨rfl, rfl⟩
  | resetDurations => exact .inl ⟨rfl, rfl⟩

/-- A call that the event does not name stays as it is. -/
theorem at_step_iff {call : Nat} {request : Request} {phase : Phase ε}
    (hne : caller? e ≠ some call) : (t.step e).At call request phase ↔ t.At call request phase := by
  unfold At
  rcases t.calls_step e with ⟨hsame, _⟩ | ⟨other, r, p, hother, hset⟩
  · rw [hsame]
  · have hcall : other ≠ call := by
      rintro rfl
      exact hne hother
    rw [hset, ExtTreeMap.getElem?_insert, if_neg (by simpa using hcall)]

/-- A call stays as it is as long as no event names it. -/
theorem At.run {call : Nat} {request : Request} {phase : Phase ε} (h : t.At call request phase)
    {es : List (Event ε)} (hes : ∀ e ∈ es, caller? e ≠ some call) :
    (t.run es).At call request phase := by
  induction es generalizing t with
  | nil => exact h
  | cons e rest ih =>
    have hstep := (at_step_iff (hes e List.mem_cons_self)).mpr h
    exact ih hstep fun e' he => hes e' (List.mem_cons_of_mem e he)

/-- A call that has come to its end stays there. -/
theorem At.step_of_over {call : Nat} {request : Request} {phase : Phase ε}
    (h : t.At call request phase) (hover : Over phase) : (t.step e).At call request phase := by
  by_cases hne : caller? e = some call
  · have hcall : t.calls[call]? = some ⟨request, phase⟩ := h
    have hmem : t.calls.contains call = true := by
      rw [ExtTreeMap.contains_eq_isSome_getElem?, hcall]
      rfl
    have hstep : t.step e = t := by
      cases e with
      | arrive other r seconds =>
        cases hne
        simp only [step, hmem, if_true]
      | viewEnds other outcome seconds =>
        cases hne
        cases phase with
        | returned result => simp only [step, hcall]
        | cancelled => simp only [step, hcall]
        | _ => cases hover
      | resume other seconds =>
        cases hne
        cases phase with
        | returned result => simp only [step, hcall]
        | cancelled => simp only [step, hcall]
        | _ => cases hover
      | cancel other =>
        cases hne
        cases phase with
        | returned result => simp only [step, hcall]
        | cancelled => simp only [step, hcall]
        | _ => cases hover
      | _ => cases hne
    rw [hstep]
    exact h
  · exact (at_step_iff hne).mpr h

/-- A call that claims although it has arrived before waits for a flight that was lost. -/
theorem At.waits_of_claimant {call : Nat} {request r : Request} {phase : Phase ε}
    (h : t.At call request phase) (hc : t.claimant? e = some (call, r)) :
    r = request ∧ ∃ flight, phase = .waiting flight ∧ t.landed[flight]? = some none := by
  rcases claimant_cases hc with ⟨_, _, hnew, _⟩ | ⟨_, flight, _, hat, hl⟩
  · rw [h] at hnew
    cases hnew
  · obtain ⟨rfl, rfl⟩ := hat.unique h
    exact ⟨rfl, flight, rfl, hl⟩

/-! ### How flights land -/

theorem mem_landed_iff {flight : Nat} :
    flight ∈ t.landed ↔ ∃ outcome, t.landed[flight]? = some outcome := by
  rw [ExtTreeMap.mem_iff_isSome_getElem?, Option.isSome_iff_exists]

theorem landed_step {flight : Nat} (h : flight ∈ t.landed) : flight ∈ (t.step e).landed := by
  generalize ht : t.step e = t'
  have hturn := t.turn e
  rw [ht] at hturn
  cases hturn with
  | land _ => exact ExtTreeMap.mem_insert.mpr (.inr h)
  | lose _ => exact ExtTreeMap.mem_insert.mpr (.inr h)
  | _ => exact h

theorem not_owns_lands (t : Traffic ε) (scope : Scope) (flight : Nat) (html : Option String) :
    ¬ (t.lands scope flight html).flights.owns scope flight = true := by
  rw [Flights.owns_iff, slots_lands]
  rintro ⟨stale, hslot⟩
  by_cases howns : t.flights.owns scope flight = true
  · rw [if_pos ⟨rfl, howns⟩] at hslot
    cases hslot
  · rw [if_neg fun h => howns h.2] at hslot
    exact howns ((Flights.owns_iff _ _ _).mpr ⟨stale, hslot⟩)

theorem step_cancel_of_leading {call flight : Nat} {request : Request}
    (h : t.At call request (.leading flight)) :
    t.step (.cancel call) =
      (t.lands request.scope flight none).setPhase call request .cancelled := by
  unfold At at h
  simp only [step, h]

/-- The call that lands a flight led it, and has then come to its end. -/
theorem Landing.over {flight : Nat} {outcome : Option String} (h : Landing t e flight outcome) :
    ∃ call request, t.At call request (.leading flight) ∧
      ∃ phase, (t.step e).At call request phase ∧ Over phase := by
  cases h with
  | @viewEnds call request _ outcome seconds hat =>
    exact ⟨call, request, hat, _, at_step_viewEnds hat outcome seconds, trivial⟩
  | @cancel call request _ hat =>
    refine ⟨call, request, hat, .cancelled, ?_, trivial⟩
    rw [step_cancel_of_leading hat]
    exact at_setPhase_self _ call request .cancelled

/-- A leader goes on leading, or ends; then its flight lands and gives its slot up. -/
theorem At.step_of_leading {call flight : Nat} {request : Request}
    (h : t.At call request (.leading flight)) :
    (t.step e).At call request (.leading flight) ∨
      ((∃ phase, (t.step e).At call request phase ∧ Over phase) ∧
        flight ∈ (t.step e).landed ∧ ¬ (t.step e).flights.owns request.scope flight = true) := by
  by_cases hne : caller? e = some call
  · have hcall : t.calls[call]? = some ⟨request, .leading flight⟩ := h
    cases e with
    | arrive other r seconds =>
      cases hne
      have hmem : t.calls.contains call = true := by
        rw [ExtTreeMap.contains_eq_isSome_getElem?, hcall]
        rfl
      left
      simpa only [step, hmem, if_true] using h
    | viewEnds other outcome seconds =>
      cases hne
      right
      rw [step_viewEnds_of_leading h]
      exact ⟨⟨_, at_setPhase_self _ call request _, trivial⟩, ExtTreeMap.mem_insert_self,
        not_owns_lands t request.scope flight outcome.toOption⟩
    | resume other seconds =>
      cases hne
      left
      simpa only [step, hcall] using h
    | cancel other =>
      cases hne
      right
      rw [step_cancel_of_leading h]
      exact ⟨⟨_, at_setPhase_self _ call request _, trivial⟩, ExtTreeMap.mem_insert_self,
        not_owns_lands t request.scope flight none⟩
    | _ => cases hne
  · exact .inl ((at_step_iff hne).mpr h)

theorem Landing.landed {flight : Nat} {outcome : Option String} (h : Landing t e flight outcome) :
    flight ∈ (t.step e).landed := by
  obtain ⟨call, request, hat, phase, hended, hover⟩ := h.over
  rcases hat.step_of_leading (e := e) with hleading | ⟨_, hlanded, _⟩
  · obtain ⟨-, rfl⟩ := hended.unique hleading
    exact hover.elim
  · exact hlanded

/-! ### From its start to its end -/

theorem leads_concat {start : List (Event ε)} {call flight : Nat} {request : Request}
    (h : Leads (es ++ [e]) start call request flight) :
    start = es ∨ Leads es start call request flight := by
  obtain ⟨e', he', hc, hat⟩ := h
  rcases List.prefix_concat_iff.mp he' with heq | hpre
  · exact .inl (List.append_inj' heq rfl).1
  · exact .inr ⟨e', hpre, hc, hat⟩

/-- The call that a flight was started by leads it, or has come to its end and the
flight has landed. -/
theorem Leads.stage {start : List (Event ε)} {call flight : Nat} {request : Request}
    (h : Leads es start call request flight) :
    ∃ phase, (after es).At call request phase ∧
      (phase = .leading flight ∨ (Over phase ∧ flight ∈ (after es).landed)) := by
  induction es using List.reverseRecOn with
  | nil =>
    obtain ⟨e, he, _⟩ := h
    have hlen := he.length_le
    simp at hlen
  | append_singleton es e ih =>
    rcases leads_concat h with rfl | hold
    · obtain ⟨e', he', _, hat⟩ := h
      rw [he'.event_unique (happens_concat _ e)] at hat
      exact ⟨_, hat, .inl rfl⟩
    · rw [after_concat]
      obtain ⟨phase, hat, rfl | ⟨hover, hlanded⟩⟩ := ih hold
      · rcases hat.step_of_leading (e := e) with hat' | ⟨⟨phase, hat', hover⟩, hlanded, _⟩
        · exact ⟨_, hat', .inl rfl⟩
        · exact ⟨phase, hat', .inr ⟨hover, hlanded⟩⟩
      · exact ⟨phase, hat.step_of_over hover, .inr ⟨hover, landed_step hlanded⟩⟩

/-- A call that leads, or has ended, starts no flight. -/
theorem Leads.not_again {start start' : List (Event ε)} {call flight flight' : Nat}
    {request request' : Request} {e : Event ε} (h : Leads es start call request flight)
    (h' : Leads es start' call request' flight') (he : Happens es start e) :
    ¬ Happens start' start e := by
  intro hlater
  obtain ⟨phase, hat, hphase⟩ := (h.at_moment he hlater).stage
  obtain ⟨_, _, hc, _⟩ := h'
  obtain ⟨-, flight'', rfl, -⟩ := hat.waits_of_claimant hc
  rcases hphase with hleading | ⟨hover, _⟩
  · cases hleading
  · exact hover

/-- A call leads at most once. -/
theorem Leads.once {start start' : List (Event ε)} {call flight flight' : Nat}
    {request request' : Request} (h : Leads es start call request flight)
    (h' : Leads es start' call request' flight') : start = start' := by
  obtain ⟨e, he, _⟩ := id h
  obtain ⟨e', he', _⟩ := id h'
  exact he.same he' (h.not_again h' he) (h'.not_again h he')

/-- A flight has a number that was given out. -/
theorem Leads.le_lastFlight {start : List (Event ε)} {call flight : Nat} {request : Request}
    (h : Leads es start call request flight) : flight ≤ (after es).flights.lastFlight := by
  obtain ⟨_, e, he, hlast⟩ := h.number
  rw [← hlast]
  exact lastFlight_mono he

/-- Calls that lead the same flight are the same call. -/
theorem leader_unique {call call' flight : Nat} {request request' : Request}
    (h : (after es).At call request (.leading flight))
    (h' : (after es).At call' request' (.leading flight)) : call' = call := by
  obtain ⟨_, hleads, _⟩ := leading_from h
  obtain ⟨_, hleads', _⟩ := leading_from h'
  exact (hleads'.unique hleads).2.1

/-- A flight that landed had a leader. -/
theorem landed_leads {flight : Nat} (h : flight ∈ (after es).landed) :
    ∃ start call request, Leads es start call request flight := by
  induction es using List.reverseRecOn with
  | nil => simp [after, run, empty] at h
  | append_singleton es e ih =>
    have hpre := List.prefix_append es [e]
    obtain ⟨outcome, hget⟩ := mem_landed_iff.mp h
    rw [after_concat] at hget
    rcases landing hget with hold | hnew
    · obtain ⟨start, call, request, hleads⟩ :=
        ih (mem_landed_iff.mpr ⟨outcome, hold⟩)
      exact ⟨start, call, request, hleads.mono hpre⟩
    · obtain ⟨call, request, hat, _⟩ := hnew.over
      obtain ⟨start, hleads, _⟩ := leading_from hat
      exact ⟨start, call, request, hleads.mono hpre⟩

/-- Nobody leads a flight that has landed. -/
theorem not_leading_of_landed {flight : Nat} (h : flight ∈ (after es).landed) (call : Nat)
    (request : Request) : ¬ (after es).At call request (.leading flight) := by
  induction es using List.reverseRecOn generalizing call request with
  | nil => exact not_at_nil
  | append_singleton es e ih =>
    intro hat
    have hafter := hat
    rw [after_concat] at hafter
    obtain ⟨outcome, hget⟩ := mem_landed_iff.mp h
    rw [after_concat] at hget
    -- The flight had its number before the event, so nobody starts it now.
    have hbefore : ∀ {start call' request'}, Leads es start call' request' flight →
        (after es).At call request (.leading flight) := by
      intro start call' request' hleads
      have hle := hleads.le_lastFlight
      rcases moves hafter with ⟨hat, _⟩ | hmove
      · exact hat
      · cases hmove with
        | lead _ _ _ _ _ => omega
    rcases landing hget with hold | hnew
    · have hmem := mem_landed_iff.mpr ⟨outcome, hold⟩
      obtain ⟨_, _, _, hleads⟩ := landed_leads hmem
      exact ih hmem call request (hbefore hleads)
    · obtain ⟨call', request', hat', phase, hended, hover⟩ := hnew.over
      obtain ⟨_, hleads, _⟩ := leading_from hat'
      obtain rfl := leader_unique hat' (hbefore hleads)
      obtain ⟨-, rfl⟩ := hended.unique hafter
      exact hover

/-! ### Slots -/

/-- A flight that is in a slot after an event was in it before, or started now. -/
theorem slot_before {scope : Scope} {flight : Flight}
    (h : (t.step e).flights.slots[scope]? = some flight) :
    (∃ old, t.flights.slots[scope]? = some old ∧ old.number = flight.number) ∨
      (flight.number = t.flights.lastFlight + 1 ∧ ∃ call request,
        (t.step e).At call request (.leading flight.number) ∧ request.scope = scope) := by
  cases t.shifts e scope with
  | keep _ hslot _ => exact .inl ⟨flight, hslot.symm.trans h, rfl⟩
  | @start call request _ hscope _ _ hopen hlead _ =>
    obtain rfl := Option.some.inj (hopen.symm.trans h)
    exact .inr ⟨rfl, call, request, hlead, hscope⟩
  | land _ _ _ hslot _ _ =>
    rw [hslot] at h
    split at h
    · cases h
    · exact .inl ⟨flight, h, rfl⟩
  | drop _ hslot _ =>
    obtain ⟨old, hold, hstale⟩ := Option.map_eq_some_iff.mp (hslot.symm.trans h)
    exact .inl ⟨old, hold, by rw [← hstale]⟩

/-- The flight in a slot is being led, for the slot's scope. -/
theorem leader_of_slot {scope : Scope} {flight : Flight}
    (h : (after es).flights.slots[scope]? = some flight) :
    ∃ call request, (after es).At call request (.leading flight.number) ∧
      request.scope = scope := by
  induction es using List.reverseRecOn generalizing flight with
  | nil => simp [after, run, empty, Flights.empty] at h
  | append_singleton es e ih =>
    rw [after_concat] at h ⊢
    rcases slot_before h with ⟨old, hold, hnumber⟩ | ⟨_, hleader⟩
    · obtain ⟨call, request, hat, rfl⟩ := ih hold
      rw [hnumber] at hat
      rcases hat.step_of_leading (e := e) with hat' | ⟨_, _, hgiven⟩
      · exact ⟨call, request, hat', rfl⟩
      · exact absurd ((Flights.owns_iff _ _ _).mpr ⟨flight.stale, h⟩) hgiven
    · exact hleader

/-- A flight in an open slot has not landed. -/
theorem not_landed_of_open {scope : Scope} {flight : Nat}
    (h : (after es).flights.Open scope flight) : flight ∉ (after es).landed := by
  intro hlanded
  obtain ⟨call, request, hat, _⟩ := leader_of_slot h
  exact not_leading_of_landed hlanded call request hat

/-- A flight that starts takes its scope's slot. -/
theorem open_of_start {call flight : Nat} {request : Request}
    (h : Leads (es ++ [e]) es call request flight) :
    (after (es ++ [e])).flights.Open request.scope flight := by
  obtain ⟨e', he', hc, hat⟩ := h
  obtain rfl := he'.event_unique (happens_concat es e)
  rw [after_concat] at hat ⊢
  rcases moves hat with ⟨_, hno⟩ | hmove
  · exact absurd hc (hno request)
  · cases hmove with
    | lead _ _ _ hopen _ => exact hopen

/-- No flight of a scope is later than the one in the scope's slot. -/
theorem Leads.le_slot {start : List (Event ε)} {call number : Nat} {request : Request}
    {flight : Flight} (h : Leads es start call request number)
    (hslot : (after es).flights.slots[request.scope]? = some flight) : number ≤ flight.number := by
  induction es using List.reverseRecOn generalizing flight with
  | nil =>
    obtain ⟨e, he, _⟩ := h
    have hlen := he.length_le
    simp at hlen
  | append_singleton es e ih =>
    rcases leads_concat h with rfl | hold
    · obtain rfl := Option.some.inj ((open_of_start h).symm.trans hslot)
      exact Nat.le_refl number
    · rw [after_concat] at hslot
      rcases slot_before hslot with ⟨old, hslot', hnumber⟩ | ⟨hnumber, _⟩
      · rw [← hnumber]
        exact ih hold hslot'
      · rw [hnumber]
        exact Nat.le_succ_of_le hold.le_lastFlight

end SharedViews.Traffic

import SharedViews.Proofs.Render.Coherence

/-! Single flight.

In one epoch of a scope views run one after the other, and once a run has ended
with html no other starts. Two facts carry this. A leader of the current epoch that
still runs its view has the scope's open slot (`open_of_leads`), so a claim joins it
and starts nothing; and once a leader of the current epoch has ended with html the
scope holds that html (`view_of_yields`), so a claim is a hit. For the second the
scope must not hold a view and have an open slot at once (`closed_of_view`). -/
namespace SharedViews.Traffic
open Std
variable {ε : Type} {es : List (Event ε)}

/-- A step leaves a call leading only if it led the flight before or claimed. -/
theorem leading_before {call flight : Nat} {request : Request} {e : Event ε} {t : Traffic ε}
    (h : (t.step e).At call request (.leading flight)) :
    t.At call request (.leading flight) ∨ t.claimant? e = some (call, request) := by
  rcases moves h with ⟨hat, _⟩ | hmove
  · exact .inl hat
  · cases hmove with
    | lead hc _ => exact .inr hc

/-- The start of a flight is known at every moment at which the call leads it. -/
theorem Leads.of_leading {call flight : Nat} {request : Request} {start past : List (Event ε)}
    (h : Leads es start call request flight) (hpast : past <+: es)
    (hat : (after past).At call request (.leading flight)) :
    Leads past start call request flight := by
  obtain ⟨start', hleads, _⟩ := leading_from hat
  obtain ⟨rfl, -, -⟩ := h.unique (hleads.mono hpast)
  exact hleads

/-- A call that leads has been leading ever since it started the flight. -/
theorem leading_between {call flight : Nat} {request : Request} {start past : List (Event ε)}
    {e : Event ε} (h : (after es).At call request (.leading flight))
    (hleads : Leads es start call request flight) (hpast : past <+: es)
    (hlater : Happens past start e) : (after past).At call request (.leading flight) := by
  induction es using List.reverseRecOn with
  | nil => exact absurd h not_at_nil
  | append_singleton es e' ih =>
    rcases List.prefix_concat_iff.mp hpast with rfl | hpast
    · exact h
    · have hstep := h
      rw [after_concat] at hstep
      rcases leading_before hstep with hat | hc
      · exact ih hat (hleads.of_leading (List.prefix_append es [e']) hat) hpast
      · -- The flight would start now, after a moment at which it had started.
        have hnow : Leads (es ++ [e']) es call request flight := ⟨e', happens_concat es e', hc, h⟩
        obtain ⟨rfl, -, -⟩ := hleads.unique hnow
        have hlen := (hlater.mono hpast).length_le
        simp only [List.length_append, List.length_singleton] at hlen
        omega

/-- A scope that holds a view has no open slot. -/
theorem closed_of_view {scope : Scope} {html : String}
    (h : (after es).flights.view? scope = some html) :
    (after es).flights.slots[scope]? = none := by
  induction es using List.reverseRecOn with
  | nil => rfl
  | append_singleton es e ih =>
    rw [after_concat] at h ⊢
    cases (after es).shifts e scope with
    | keep _ hslot hview =>
      rw [hslot]
      exact ih (hview ▸ h)
    | start _ _ _ _ _ _ hview =>
      rw [hview] at h
      cases h
    | land _ _ _ hslot _ hview =>
      rw [hslot]
      rcases hview with hview | ⟨_, _, _, hopen, _⟩
      · rw [ih (hview ▸ h)]
        split <;> rfl
      · rw [if_pos hopen.owns]
    | drop _ _ hview =>
      rw [hview] at h
      cases h

/-- A leader of the current epoch has the open slot of its scope. -/
theorem open_of_leads {call flight : Nat} {request : Request} {start : List (Event ε)}
    (h : (after es).At call request (.leading flight))
    (hleads : Leads es start call request flight)
    (hepoch : epoch request.scope start = epoch request.scope es) :
    (after es).flights.Open request.scope flight := by
  induction es using List.reverseRecOn with
  | nil => exact absurd h not_at_nil
  | append_singleton es e ih =>
    have hpre := List.prefix_append es [e]
    have hstep := h
    rw [after_concat] at hstep ⊢
    rcases moves hstep with ⟨hat, _⟩ | hmove
    · have hleads' := hleads.of_leading hpre hat
      have hle := epoch_mono request.scope hleads'.isPrefix
      have hle' := epoch_mono request.scope hpre
      have hopen := ih hat hleads' (by omega)
      cases (after es).shifts e request.scope with
      | keep _ hslot _ => rwa [Flights.Open, hslot]
      | start _ _ _ hclosed _ _ _ => exact absurd hopen (hclosed flight)
      | @land other request' flight' _ hat' _ hslot hend _ =>
        by_cases howns : (after es).flights.owns request.scope flight' = true
        · -- The flight that lands is the one in the slot, so its leader is the call.
          obtain ⟨stale, hslot'⟩ := (Flights.owns_iff _ _ _).mp howns
          have hflight : flight' = flight := by
            have hsame := hslot'.symm.trans hopen
            simp only [Option.some.injEq, Flight.mk.injEq] at hsame
            exact hsame.1
          subst hflight
          obtain ⟨start', hleads'', _⟩ := leading_from hat'
          obtain ⟨-, rfl, rfl⟩ := hleads'.unique hleads''
          exact absurd hstep (hend flight')
        · rw [if_neg howns] at hslot
          rwa [Flights.Open, hslot]
      | drop he _ _ =>
        have hlt := epoch_lt_of_drops (happens_concat es e) he
        omega
    · cases hmove with
      | lead _ _ _ hopen _ => exact hopen

theorem Leads.shared {call flight : Nat} {request : Request} {start : List (Event ε)}
    (h : Leads es start call request flight) : request.isShared = true := by
  obtain ⟨e, he, hc, _⟩ := h
  exact Claims.shared ⟨e, he, hc⟩

theorem leading_shared {call flight : Nat} {request : Request}
    (h : (after es).At call request (.leading flight)) : request.isShared = true := by
  obtain ⟨_, hleads, _⟩ := leading_from h
  exact hleads.shared

/-- A leader starts a flight only where no view is held and no slot is open. -/
theorem Leads.closed {call flight : Nat} {request : Request} {start : List (Event ε)}
    (h : Leads es start call request flight) :
    (after start).flights.view? request.scope = none ∧
      ∀ f, ¬ (after start).flights.Open request.scope f := by
  obtain ⟨e, _, hc, hat⟩ := h
  rw [after_concat] at hat
  rcases moves hat with ⟨_, hno⟩ | hmove
  · exact absurd hc (hno request)
  · cases hmove with
    | lead _ hview hclosed _ _ => exact ⟨hview, hclosed⟩

/-- A start and its leader are known at every moment after it. -/
theorem Leads.at_moment {call flight : Nat} {request : Request} {start past : List (Event ε)}
    {e : Event ε} (h : Leads es start call request flight) (he : Happens es start e)
    (hlater : Happens past start e) : Leads past start call request flight := by
  obtain ⟨e', he', hc, hat⟩ := h
  rw [he'.event_unique he] at hc hat
  exact ⟨e, hlater, hc, hat⟩

/-- While the epoch lasts, the scope holds what a leader's view ended with in it. -/
theorem view_of_yields {scope : Scope} {start : List (Event ε)} {leader : Nat} {html : String}
    (h : Yields es start leader scope html) (hepoch : epoch scope start = epoch scope es) :
    (after es).flights.view? scope = some html := by
  induction es using List.reverseRecOn with
  | nil =>
    obtain ⟨_, _, past, _, _, _, hends, _⟩ := h
    have hlen := hends.length_le
    simp at hlen
  | append_singleton es e ih =>
    have hpre := List.prefix_append es [e]
    obtain ⟨request, flight, past, seconds, rfl, hleads, hends, hat⟩ := h
    rw [after_concat]
    rcases List.prefix_concat_iff.mp hends with heq | hends
    · obtain ⟨rfl, hevent⟩ := List.append_inj' heq rfl
      have hee : Event.viewEnds leader (.ok html) seconds = e := by simpa using hevent
      subst hee
      rw [epoch_concat_of_not_drops rfl] at hepoch
      have hopen := open_of_leads hat (hleads.of_leading hpre hat) hepoch
      exact view?_step_viewEnds hat hopen hleads.shared html seconds
    · have hpast : past <+: es := (List.prefix_append past _).trans hends
      have hleads' := (hleads.of_leading (hpast.trans hpre) hat).mono hpast
      have hle := epoch_mono request.scope hleads'.isPrefix
      have hle' := epoch_mono request.scope hpre
      have hview := ih ⟨request, flight, past, seconds, rfl, hleads', hends, hat⟩ (by omega)
      cases (after es).shifts e request.scope with
      | keep _ _ hsame => rw [hsame, hview]
      | start _ _ hnone _ _ _ _ =>
        rw [hview] at hnone
        cases hnone
      | land _ _ _ _ _ hland =>
        rcases hland with hsame | ⟨_, _, _, hopen, _⟩
        · rw [hsame, hview]
        · rw [Flights.Open, closed_of_view hview] at hopen
          cases hopen
      | drop he _ _ =>
        have hlt := epoch_lt_of_drops (happens_concat es e) he
        omega

/-- After a leader of an epoch has started that will end with html, no other starts
in the epoch. -/
theorem Yields.not_later {scope : Scope} {start start' : List (Event ε)}
    {leader leader' flight' : Nat} {request' : Request} {html : String} {e : Event ε}
    (h : Yields es start leader scope html) (hleads' : Leads es start' leader' request' flight')
    (hscope : request'.scope = scope) (hepoch : epoch scope start = epoch scope start')
    (he : Happens es start e) : ¬ Happens start' start e := by
  intro hlater
  obtain ⟨request, flight, past, seconds, rfl, hleads, hends, hat⟩ := h
  obtain ⟨hnone, hclosed⟩ := hleads'.closed
  rw [hscope] at hnone hclosed
  obtain ⟨e', he', _⟩ := hleads'
  rcases hends.order he' with hle | hlt
  · -- The first leader still runs its view, so its slot is open.
    have hat' := leading_between hat (hleads.of_leading hends.isPrefix hat) hle hlater
    exact hclosed flight (open_of_leads hat' (hleads.at_moment he hlater) hepoch)
  · -- The first leader has ended, so its view is held.
    have hyields : Yields start' start leader request.scope html :=
      ⟨request, flight, past, seconds, rfl, hleads.at_moment he hlater, hlt, hat⟩
    rw [view_of_yields hyields hepoch] at hnone
    cases hnone

/-- After the view of a leader has ended the call does not lead. -/
theorem ends_last {past past' : List (Event ε)} {call flight : Nat} {request : Request}
    {html : String} {seconds : Float} {e : Event ε}
    (hends : Happens es past (.viewEnds call (.ok html) seconds))
    (hat : (after past).At call request (.leading flight)) (he : Happens es past' e)
    (hat' : (after past').At call request (.leading flight)) : past' <+: past := by
  rcases hends.order he with hle | hlt
  · exact hle
  · obtain ⟨start, hleads, _⟩ := leading_from hat'
    obtain ⟨start', hleads', _⟩ := leading_from hat
    obtain ⟨rfl, -, -⟩ := hleads.unique (hleads'.mono hlt.isPrefix)
    obtain ⟨e', he', _⟩ := hleads'
    have hlead := leading_between hat' hleads hlt (he'.trans (List.prefix_append past _))
    rw [after_concat] at hlead
    have hphase := (at_step_viewEnds hat (.ok html) seconds).unique hlead
    cases hphase.2

/-- Of the leaders of one epoch at most one ends with html, and only once. -/
theorem Yields.unique {scope : Scope} {start start' : List (Event ε)} {leader leader' : Nat}
    {html html' : String} (h : Yields es start leader scope html)
    (h' : Yields es start' leader' scope html') (hepoch : epoch scope start = epoch scope start') :
    start = start' ∧ leader = leader' ∧ html = html' := by
  obtain ⟨r, f, past, seconds, hscope, hleads, hends, hat⟩ := id h
  obtain ⟨r', f', past', seconds', hscope', hleads', hends', hat'⟩ := id h'
  obtain ⟨e, he, hc, _⟩ := id hleads
  obtain ⟨e', he', hc', _⟩ := id hleads'
  have hstart : start = start' := he.same he' (h.not_later hleads' hscope' hepoch he)
    (h'.not_later hleads hscope hepoch.symm he')
  subst hstart
  have hflight : f = f' := by rw [hleads.number.1, hleads'.number.1]
  subst hflight
  obtain ⟨-, rfl, rfl⟩ := hleads.unique hleads'
  have hpast : past = past' := by
    have hle := ends_last hends' hat' hends hat
    exact hle.eq_of_length_le (ends_last hends hat hends' hat').length_le
  subst hpast
  have hevent := hends.event_unique hends'
  simp only [Event.viewEnds.injEq, Except.ok.injEq, true_and] at hevent
  exact ⟨rfl, rfl, hevent.1⟩

/-- **Single flight.** In one epoch of a scope at most one leader that claimed in it
runs its view at a time, at most one of all leaders that claim in it ever ends with
html, and all shared calls whose last claim falls into it return that leader's html
if they return html at all. -/
theorem single_flight (es : List (Event ε)) (scope : Scope) :
    (∀ call call' request request' flight flight' start start',
      (after es).At call request (.leading flight) → Leads es start call request flight →
      request.scope = scope → epoch scope start = epoch scope es →
      (after es).At call' request' (.leading flight') →
      Leads es start' call' request' flight' → request'.scope = scope →
      epoch scope start' = epoch scope es → call = call') ∧
    (∀ start start' leader leader' html html', Yields es start leader scope html →
      Yields es start' leader' scope html' → epoch scope start = epoch scope start' →
      start = start' ∧ leader = leader' ∧ html = html') ∧
    (∀ call call' request request' html html' claim claim',
      (after es).At call request (.returned (.ok html)) → request.isShared = true →
      request.scope = scope → LastClaim es claim call request →
      (after es).At call' request' (.returned (.ok html')) → request'.isShared = true →
      request'.scope = scope → LastClaim es claim' call' request' →
      epoch scope claim = epoch scope claim' →
      html = html' ∧ ∃ start leader, Yields es start leader scope html ∧
        epoch scope start = epoch scope claim) := by
  refine ⟨?_, ?_, ?_⟩
  · intro call call' request request' flight flight' start start' hat hleads hscope hepoch hat'
      hleads' hscope' hepoch'
    subst hscope
    have hopen := open_of_leads hat hleads hepoch
    rw [← hscope'] at hepoch' hopen
    have hflight := hopen.unique (open_of_leads hat' hleads' hepoch')
    subst hflight
    exact (hleads.unique hleads').2.1
  · intro start start' leader leader' html html' h h' hepoch
    exact h.unique h' hepoch
  · intro call call' request request' html html' claim claim' h hr hscope hlast h' hr' hscope'
      hlast' hepoch
    subst hscope
    obtain ⟨claim₁, start, leader, hlast₁, hyields, hstart⟩ := returned_from h hr
    obtain ⟨claim₂, start', leader', hlast₂, hyields', hstart'⟩ := returned_from h' hr'
    obtain rfl := hlast₁.unique hlast
    obtain rfl := hlast₂.unique hlast'
    rw [hscope'] at hyields' hstart'
    have hsame := hyields.unique hyields' (hstart.trans (hepoch.trans hstart'.symm))
    exact ⟨hsame.2.2, start, leader, hyields, hstart⟩

/-- The leader and the call served from the cache return the same html. -/
theorem single_flight_overtaken :
    (after overtaken).At 2 globalUpdate (.returned (.ok "new")) ∧
      (after overtaken).At 3 globalUpdate (.returned (.ok "new")) ∧
      LastClaim overtaken (overtaken.take 5) 2 globalUpdate ∧
      LastClaim overtaken (overtaken.take 7) 3 globalUpdate ∧
      ∃ start leader, Yields overtaken start leader .global "new" ∧
        epoch .global start = epoch .global (overtaken.take 5) := by
  have hled : LastClaim (overtaken.take 6) (overtaken.take 5) 2 globalUpdate :=
    lastClaim_concat rfl
  have hlast : LastClaim overtaken (overtaken.take 5) 2 globalUpdate :=
    (hled.concat fun _ h => by cases h).concat fun _ h => by cases h
  have hhit : LastClaim overtaken (overtaken.take 7) 3 globalUpdate := lastClaim_concat rfl
  obtain ⟨_, _, hsame⟩ := single_flight overtaken .global
  have hone := hsame 2 3 globalUpdate globalUpdate "new" "new" _ _ rfl rfl rfl hlast rfl rfl rfl
    hhit rfl
  exact ⟨rfl, rfl, hlast, hhit, hone.2⟩

end SharedViews.Traffic

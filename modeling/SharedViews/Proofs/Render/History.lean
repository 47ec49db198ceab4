import SharedViews.Proofs.Moments
import SharedViews.Proofs.Render.Turns

/-! Histories of traffic.

A history is the list of events since the empty traffic, the latest last, and a
moment of it is the events before that moment; `Happens` says which event comes
then. An epoch of a scope is a longest stretch of a history in which nothing drops
what the scope holds, and it is known by the number of drops before it.

What a history shows of calls: when a call claimed (`Claims`, and `LastClaim` for
the last time), when it became the leader of a flight (`Leads`), and that the view
it ran as a leader ended with html (`Yields`). A flight has one leader and one
moment at which it was started (`Leads.unique`), and every leader, waiter and
landed flight of the traffic has its place in the history. -/
namespace SharedViews.Traffic
open Std
variable {ε : Type} {es past : List (Event ε)}

/-- The traffic after a history. -/
def after (es : List (Event ε)) : Traffic ε := empty.run es

theorem after_concat (es : List (Event ε)) (e : Event ε) :
    after (es ++ [e]) = (after es).step e := run_append empty es [e]

/-- The event comes right after `past`. -/
def Happens (es past : List (Event ε)) (e : Event ε) : Prop := past ++ [e] <+: es

/-- The number of drops so far. -/
def epoch (scope : Scope) (es : List (Event ε)) : Nat := es.countP (drops scope)

/-- The call claims after `past`. -/
def Claims (es past : List (Event ε)) (call : Nat) (request : Request) : Prop :=
  ∃ e, Happens es past e ∧ (after past).claimant? e = some (call, request)

/-- The call claims after `past`, and never later. -/
def LastClaim (es past : List (Event ε)) (call : Nat) (request : Request) : Prop :=
  Claims es past call request ∧ ∀ later r, Claims es later call r → later <+: past

/-- The call claims after `start` and becomes the leader of the flight; its view
starts. -/
def Leads (es start : List (Event ε)) (call : Nat) (request : Request) (flight : Nat) : Prop :=
  ∃ e, Happens es start e ∧ (after start).claimant? e = some (call, request) ∧
    (after (start ++ [e])).At call request (.leading flight)

/-- The view that the call ran for the scope, as a leader since `start`, ended with
html. -/
def Yields (es start : List (Event ε)) (call : Nat) (scope : Scope) (html : String) : Prop :=
  ∃ request flight past seconds, request.scope = scope ∧
    Leads es start call request flight ∧ Happens es past (.viewEnds call (.ok html) seconds) ∧
    (after past).At call request (.leading flight)

/-! ### Moments -/

theorem Happens.isPrefix {e : Event ε} (h : Happens es past e) : past <+: es :=
  (List.prefix_append past [e]).trans h

theorem Happens.mono {es' : List (Event ε)} {e : Event ε} (h : Happens es past e)
    (hes : es <+: es') : Happens es' past e := h.trans hes

theorem happens_concat (es : List (Event ε)) (e : Event ε) : Happens (es ++ [e]) es e :=
  List.prefix_refl _

/-- One moment has one event. -/
theorem Happens.event_unique {e e' : Event ε} (h : Happens es past e) (h' : Happens es past e') :
    e = e' := Comes.event_unique h h'

/-- Of two moments one is the earlier. -/
theorem Happens.order {past' : List (Event ε)} {e e' : Event ε} (h : Happens es past e)
    (h' : Happens es past' e') : past' <+: past ∨ Happens past' past e := Comes.order h h'

/-- Two moments of which neither is the earlier are one. -/
theorem Happens.same {past' : List (Event ε)} {e e' : Event ε} (h : Happens es past e)
    (h' : Happens es past' e') (hearlier : ¬ Happens past' past e)
    (hlater : ¬ Happens past past' e') : past = past' := Comes.same h h' hearlier hlater

theorem Claims.mono {es' : List (Event ε)} {call : Nat} {request : Request}
    (h : Claims es past call request) (hes : es <+: es') : Claims es' past call request := by
  obtain ⟨e, he, hc⟩ := h
  exact ⟨e, he.mono hes, hc⟩

theorem Leads.mono {es' : List (Event ε)} {call flight : Nat} {request : Request}
    (h : Leads es past call request flight) (hes : es <+: es') :
    Leads es' past call request flight := by
  obtain ⟨e, he, hc, hat⟩ := h
  exact ⟨e, he.mono hes, hc, hat⟩

theorem Leads.isPrefix {start : List (Event ε)} {call flight : Nat} {request : Request}
    (h : Leads es start call request flight) : start <+: es := by
  obtain ⟨e, he, _⟩ := h
  exact he.isPrefix

theorem Yields.mono {es' start : List (Event ε)} {call : Nat} {scope : Scope} {html : String}
    (h : Yields es start call scope html) (hes : es <+: es') : Yields es' start call scope html := by
  obtain ⟨request, flight, past, seconds, hscope, hleads, hends, hat⟩ := h
  exact ⟨request, flight, past, seconds, hscope, hleads.mono hes, hends.mono hes, hat⟩

/-! ### Epochs -/

theorem epoch_mono {es' : List (Event ε)} (scope : Scope) (h : es <+: es') :
    epoch scope es ≤ epoch scope es' := h.sublist.countP_le

theorem epoch_concat_of_not_drops {scope : Scope} {e : Event ε} (he : drops scope e = false) :
    epoch scope (es ++ [e]) = epoch scope es := by
  simp [epoch, he]

theorem epoch_lt_of_drops {scope : Scope} {e : Event ε} (h : Happens es past e)
    (he : drops scope e = true) : epoch scope past < epoch scope es := by
  have hstep : epoch scope (past ++ [e]) = epoch scope past + 1 := by
    simp [epoch, he]
  have hle := epoch_mono scope h
  omega

/-! ### Last claims -/

theorem lastClaim_concat {e : Event ε} {call : Nat} {request : Request}
    (hc : (after es).claimant? e = some (call, request)) :
    LastClaim (es ++ [e]) es call request := by
  refine ⟨⟨e, happens_concat es e, hc⟩, ?_⟩
  intro later r hclaims
  obtain ⟨e', he', _⟩ := hclaims
  have hlen := he'.length_le
  exact List.prefix_of_prefix_length_le he'.isPrefix (List.prefix_append es [e])
    (by simpa using hlen)

theorem LastClaim.concat {e : Event ε} {call : Nat} {request : Request}
    (h : LastClaim es past call request)
    (hno : ∀ r, (after es).claimant? e ≠ some (call, r)) :
    LastClaim (es ++ [e]) past call request := by
  refine ⟨h.1.mono (List.prefix_append es [e]), ?_⟩
  intro later r hclaims
  obtain ⟨e', he', hc'⟩ := hclaims
  rcases List.prefix_concat_iff.mp he' with heq | hpre
  · obtain ⟨rfl, hevent⟩ := List.append_inj' heq rfl
    have hee : e' = e := by simpa using hevent
    rw [hee] at hc'
    exact absurd hc' (hno r)
  · exact h.2 later r ⟨e', hpre, hc'⟩

/-- A call has one last claim. -/
theorem LastClaim.unique {past' : List (Event ε)} {call : Nat} {r r' : Request}
    (h : LastClaim es past call r) (h' : LastClaim es past' call r') : past = past' :=
  List.IsPrefix.eq_of_length_le (h'.2 past r h.1) (h.2 past' r' h'.1).length_le

/-! ### Flights -/

/-- What no step undoes lasts. -/
theorem after_mono {P : Traffic ε → Prop} (hstep : ∀ t e, P t → P (t.step e))
    {es' : List (Event ε)} (h : es <+: es') (hes : P (after es)) : P (after es') := by
  obtain ⟨rest, rfl⟩ := h
  induction rest using List.reverseRecOn with
  | nil => simpa using hes
  | append_singleton rest e ih =>
    rw [← List.append_assoc, after_concat]
    exact hstep _ e ih

theorem lastFlight_mono {es' : List (Event ε)} (h : es <+: es') :
    (after es).flights.lastFlight ≤ (after es').flights.lastFlight :=
  after_mono (P := fun t => (after es).flights.lastFlight ≤ t.flights.lastFlight)
    (fun t e hle => Nat.le_trans hle (lastFlight_step t e)) h (Nat.le_refl _)

/-- A flight has the number that is next when it starts. -/
theorem Leads.number {start : List (Event ε)} {call flight : Nat} {request : Request}
    (h : Leads es start call request flight) :
    flight = (after start).flights.lastFlight + 1 ∧
      ∃ e, Happens es start e ∧ (after (start ++ [e])).flights.lastFlight = flight := by
  obtain ⟨e, he, hc, hat⟩ := h
  rw [after_concat] at hat
  rcases moves hat with ⟨_, hno⟩ | hmove
  · exact absurd hc (hno request)
  · cases hmove with
    | lead _ _ _ _ hlast => exact ⟨rfl, e, he, by rw [after_concat, hlast]⟩

/-- No number is given twice. -/
theorem Leads.not_later {start start' : List (Event ε)} {call call' flight : Nat}
    {r r' : Request} {e : Event ε} (h : Leads es start call r flight)
    (h' : Leads es start' call' r' flight) (he : Happens es start e) :
    ¬ Happens start' start e := by
  intro hlater
  obtain ⟨_, e', he', hlast⟩ := h.number
  obtain ⟨hnext, _⟩ := h'.number
  rw [he'.event_unique he] at hlast
  have hle := lastFlight_mono hlater
  omega

/-- A flight has one leader, which started it once. -/
theorem Leads.unique {start start' : List (Event ε)} {call call' flight : Nat} {r r' : Request}
    (h : Leads es start call r flight) (h' : Leads es start' call' r' flight) :
    start = start' ∧ call = call' ∧ r = r' := by
  obtain ⟨e, he, hc, _⟩ := id h
  obtain ⟨e', he', hc', _⟩ := id h'
  have hstart : start = start' := he.same he' (h.not_later h' he) (h'.not_later h he')
  subst hstart
  have hevent := he.event_unique he'
  subst hevent
  have hpair := hc.symm.trans hc'
  simp only [Option.some.injEq, Prod.mk.injEq] at hpair
  exact ⟨rfl, hpair.1, hpair.2⟩

/-! ### Where calls and flights come from -/

theorem not_at_nil {call : Nat} {request : Request} {phase : Phase ε} :
    ¬ (after ([] : List (Event ε))).At call request phase := by
  simp [At, after, run, empty]

/-- A call that leads has led the flight since its last claim. -/
theorem leading_from {call flight : Nat} {request : Request}
    (h : (after es).At call request (.leading flight)) :
    ∃ start, Leads es start call request flight ∧ LastClaim es start call request := by
  induction es using List.reverseRecOn with
  | nil => exact absurd h not_at_nil
  | append_singleton es e ih =>
    have hat := h
    rw [after_concat] at hat
    rcases moves hat with ⟨hat, hno⟩ | hmove
    · obtain ⟨start, hleads, hlast⟩ := ih hat
      exact ⟨start, hleads.mono (List.prefix_append es [e]), hlast.concat hno⟩
    · cases hmove with
      | lead hc _ _ _ _ => exact ⟨es, ⟨e, happens_concat es e, hc, h⟩, lastClaim_concat hc⟩

/-- A call that waits joined the open flight of its scope at its last claim. -/
theorem waiting_from {call flight : Nat} {request : Request}
    (h : (after es).At call request (.waiting flight)) :
    ∃ claim, LastClaim es claim call request ∧ (after claim).flights.Open request.scope flight := by
  induction es using List.reverseRecOn with
  | nil => exact absurd h not_at_nil
  | append_singleton es e ih =>
    rw [after_concat] at h
    rcases moves h with ⟨hat, hno⟩ | hmove
    · obtain ⟨claim, hlast, hopen⟩ := ih hat
      exact ⟨claim, hlast.concat hno, hopen⟩
    · cases hmove with
      | wait hc hopen => exact ⟨es, lastClaim_concat hc, hopen⟩

/-- A call that runs its view for itself alone shares with nobody. -/
theorem viewing_private {call : Nat} {request : Request}
    (h : (after es).At call request .viewing) : request.isShared = false := by
  induction es using List.reverseRecOn with
  | nil => exact absurd h not_at_nil
  | append_singleton es e ih =>
    rw [after_concat] at h
    rcases moves h with ⟨hat, _⟩ | hmove
    · exact ih hat
    · cases hmove with
      | view _ hr => exact hr

/-- A call that waits shares its view. -/
theorem waiting_shared {call flight : Nat} {request : Request}
    (h : (after es).At call request (.waiting flight)) : request.isShared = true := by
  induction es using List.reverseRecOn generalizing flight with
  | nil => exact absurd h not_at_nil
  | append_singleton es e ih =>
    rw [after_concat] at h
    rcases moves h with ⟨hat, _⟩ | hmove
    · exact ih hat
    · cases hmove with
      | wait hc _ =>
        rcases claimant_cases hc with ⟨_, _, _, hr⟩ | ⟨_, flight', _, hat, _⟩
        · exact hr
        · exact ih hat

/-- Only a shared call claims. -/
theorem Claims.shared {call : Nat} {request : Request} (h : Claims es past call request) :
    request.isShared = true := by
  obtain ⟨e, _, hc⟩ := h
  rcases claimant_cases hc with ⟨_, _, _, hr⟩ | ⟨_, _, _, hat, _⟩
  · exact hr
  · exact waiting_shared hat

/-- A flight that landed with html had a leader whose view ended with it. -/
theorem landed_from {flight : Nat} {html : String}
    (h : (after es).landed[flight]? = some (some html)) :
    ∃ start call request, Leads es start call request flight ∧
      Yields es start call request.scope html := by
  induction es using List.reverseRecOn with
  | nil => simp [after, run, empty] at h
  | append_singleton es e ih =>
    rw [after_concat] at h
    have hpre := List.prefix_append es [e]
    rcases landings h with hold | ⟨call, request, seconds, hat, rfl⟩
    · obtain ⟨start, call, request, hleads, hyields⟩ := ih hold
      exact ⟨start, call, request, hleads.mono hpre, hyields.mono hpre⟩
    · obtain ⟨start, hleads, _⟩ := leading_from hat
      exact ⟨start, call, request, hleads.mono hpre, request, flight, es, seconds, rfl,
        hleads.mono hpre, happens_concat es _, hat⟩

end SharedViews.Traffic

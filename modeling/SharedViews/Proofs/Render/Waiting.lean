import SharedViews.Proofs.Render.Leaders
import Mathlib.Data.Finset.Card

/-! Waiting, and claiming again.

A waiting call is never stranded: the flight it joined is still led, or it has landed
and the call can go on (`leader_of_waiting`). A call joins a flight while the flight
has an open slot and claims again only after it has landed, so it joins no flight
twice (`Joins.once`). Every claim of a call but the first follows a flight that
another call led for the scope and lost, a different one each time (`claims_le`). -/
namespace SharedViews.Traffic
open Std
variable {ε : Type} {es past : List (Event ε)} {t : Traffic ε} {e : Event ε}

/-- The call claims after `past` and comes to wait for the flight. -/
def Joins (es past : List (Event ε)) (call flight : Nat) : Prop :=
  ∃ e request, Happens es past e ∧ (after past).claimant? e = some (call, request) ∧
    (after (past ++ [e])).At call request (.waiting flight)

/-- The call led the flight for the scope and ended without a view: its view failed,
or it was cancelled. -/
def Loses (es : List (Event ε)) (call : Nat) (scope : Scope) (flight : Nat) : Prop :=
  ∃ past request, request.scope = scope ∧ (after past).At call request (.leading flight) ∧
    (Happens es past (.cancel call) ∨
      ∃ cause seconds, Happens es past (.viewEnds call (.error cause) seconds))

/-- How often a call claims in the course of events. -/
def claimCount (t : Traffic ε) (call : Nat) : List (Event ε) → Nat
  | [] => 0
  | e :: rest =>
    ((t.claimant? e).any fun c => c.1 == call).toNat + (t.step e).claimCount call rest

/-- How often a call has claimed so far. -/
def claimsOf (es : List (Event ε)) (call : Nat) : Nat := (empty : Traffic ε).claimCount call es

/-! ### Counting claims -/

theorem claimCount_append (t : Traffic ε) (call : Nat) (a b : List (Event ε)) :
    t.claimCount call (a ++ b) = t.claimCount call a + (t.run a).claimCount call b := by
  induction a generalizing t with
  | nil => exact (Nat.zero_add _).symm
  | cons e rest ih =>
    show _ + (t.step e).claimCount call (rest ++ b) = _
    rw [ih, ← Nat.add_assoc]
    rfl

theorem claimsOf_concat (es : List (Event ε)) (e : Event ε) (call : Nat) :
    claimsOf (es ++ [e]) call =
      claimsOf es call + (((after es).claimant? e).any fun c => c.1 == call).toNat :=
  claimCount_append empty call es [e]

theorem claimsOf_concat_of_claimant {call : Nat} {request : Request}
    (h : (after es).claimant? e = some (call, request)) :
    claimsOf (es ++ [e]) call = claimsOf es call + 1 := by
  rw [claimsOf_concat, h]
  simp

theorem claimsOf_concat_of_not {call : Nat}
    (h : ∀ request, (after es).claimant? e ≠ some (call, request)) :
    claimsOf (es ++ [e]) call = claimsOf es call := by
  rw [claimsOf_concat]
  cases hc : (after es).claimant? e with
  | none => rfl
  | some c =>
    have hne : (c.1 == call) = false := by
      rw [beq_eq_false_iff_ne]
      rintro rfl
      exact h c.2 hc
    simp [hne]

/-! ### Calls -/

theorem mem_calls_iff {call : Nat} : call ∈ t.calls ↔ ∃ request phase, t.At call request phase := by
  rw [ExtTreeMap.mem_iff_isSome_getElem?, Option.isSome_iff_exists]
  constructor
  · rintro ⟨⟨request, phase⟩, h⟩
    exact ⟨request, phase, h⟩
  · rintro ⟨request, phase, h⟩
    exact ⟨_, h⟩

/-- A call keeps its request. -/
theorem At.request_eq {call : Nat} {request r : Request} {phase p : Phase ε}
    (h : t.At call request phase) (h' : (t.step e).At call r p) : r = request := by
  rcases moves h' with ⟨hat, _⟩ | hmove
  · exact (hat.unique h).1
  · cases hmove with
    | view hnew _ =>
      rw [h] at hnew
      cases hnew
    | viewed hat => exact (hat.unique h).1
    | hit hc _ => exact (h.waits_of_claimant hc).1
    | wait hc _ => exact (h.waits_of_claimant hc).1
    | lead hc _ _ _ _ => exact (h.waits_of_claimant hc).1
    | land hat => exact (hat.unique h).1
    | served hat _ => exact (hat.unique h).1
    | drop hat => exact (hat.unique h).1

theorem mem_calls_step {call : Nat} (h : call ∈ t.calls) : call ∈ (t.step e).calls := by
  rcases t.calls_step e with ⟨hsame, _⟩ | ⟨_, _, _, _, hset⟩
  · rw [hsame]
    exact h
  · rw [hset]
    exact ExtTreeMap.mem_insert.mpr (.inr h)

theorem mem_calls_of_claimant {call : Nat} {request : Request}
    (h : t.claimant? e = some (call, request)) : call ∈ (t.step e).calls := by
  rcases t.calls_step e with ⟨_, hnone⟩ | ⟨other, _, _, hother, hset⟩
  · rw [h] at hnone
    cases hnone
  · obtain rfl := Option.some.inj ((caller_of_claimant h).symm.trans hother)
    rw [hset]
    exact ExtTreeMap.mem_insert_self

/-- A call that has not arrived has not claimed. -/
theorem claimsOf_of_not_mem {call : Nat} (h : call ∉ (after es).calls) : claimsOf es call = 0 := by
  induction es using List.reverseRecOn with
  | nil => rfl
  | append_singleton es e ih =>
    rw [after_concat] at h
    rw [claimsOf_concat_of_not fun _ hc => h (mem_calls_of_claimant hc)]
    exact ih fun hmem => h (mem_calls_step hmem)

/-! ### Waiting -/

/-- A waiting call joined a flight that somebody else started for its scope. -/
theorem leads_of_waiting {call flight : Nat} {request : Request}
    (h : (after es).At call request (.waiting flight)) :
    ∃ start leader r, Leads es start leader r flight ∧ r.scope = request.scope ∧ leader ≠ call := by
  obtain ⟨claim, hlast, hopen⟩ := waiting_from h
  obtain ⟨_, hclaim, _⟩ := hlast.1
  obtain ⟨start, leader, r, hleads, hscope, _⟩ := open_from hopen
  have hled := hleads.mono hclaim.isPrefix
  refine ⟨start, leader, r, hled, hscope, ?_⟩
  rintro rfl
  obtain ⟨phase, hat, hphase⟩ := hled.stage
  obtain ⟨-, rfl⟩ := hat.unique h
  rcases hphase with hleading | ⟨hover, _⟩
  · cases hleading
  · exact hover

/-- The flight that a call waits for is still led, for the call's scope, or has landed. -/
theorem leader_of_waiting {call flight : Nat} {request : Request}
    (h : (after es).At call request (.waiting flight)) :
    (∃ leader r, (after es).At leader r (.leading flight) ∧ r.scope = request.scope) ∨
      flight ∈ (after es).landed := by
  obtain ⟨_, leader, r, hleads, hscope, _⟩ := leads_of_waiting h
  obtain ⟨phase, hat, rfl | ⟨_, hlanded⟩⟩ := hleads.stage
  · exact .inl ⟨leader, r, hat, hscope⟩
  · exact .inr hlanded

theorem canResume_iff {call : Nat} : t.canResume call = true ↔
    ∃ request flight, t.At call request (.waiting flight) ∧ flight ∈ t.landed := by
  unfold canResume phase? At
  constructor
  · intro h
    cases hcall : t.calls[call]? with
    | none => simp [hcall] at h
    | some c =>
      obtain ⟨request, phase⟩ := c
      cases phase with
      | waiting flight => exact ⟨request, flight, rfl, by simpa [hcall] using h⟩
      | _ => simp [hcall] at h
  · rintro ⟨request, flight, hat, hlanded⟩
    simpa [hat] using hlanded

theorem step_resume_of_landed {call flight : Nat} {request : Request} {html : String}
    (h : t.At call request (.waiting flight)) (hl : t.landed[flight]? = some (some html))
    (seconds : Float) :
    t.step (.resume call seconds) = t.returns call request (.ok html) seconds := by
  unfold At at h
  simp only [step, h, hl]

theorem claimant_resume {call flight : Nat} {request : Request}
    (h : t.At call request (.waiting flight)) (hl : t.landed[flight]? = some none)
    (seconds : Float) : t.claimant? (.resume call seconds) = some (call, request) := by
  unfold At at h
  simp only [claimant?, h, hl, if_true]

/-- A call that goes on waits for the landed flight no longer. -/
theorem not_waiting_after_resume {call flight : Nat} {request : Request}
    (h : (after es).At call request (.waiting flight)) (hlanded : flight ∈ (after es).landed)
    (seconds : Float) :
    ¬ ((after es).step (.resume call seconds)).At call request (.waiting flight) := by
  intro hafter
  rcases moves hafter with ⟨_, hno⟩ | hmove
  · obtain ⟨outcome, hl⟩ := mem_landed_iff.mp hlanded
    cases outcome with
    | none => exact hno request (claimant_resume h hl seconds)
    | some html =>
      rw [step_resume_of_landed h hl] at hafter
      cases ((at_setPhase_self _ call request (.returned (.ok html))).unique hafter).2
  · cases hmove with
    | wait _ hopen => exact not_landed_of_open hopen hlanded

/-! ### Joining -/

theorem joins_concat {call flight : Nat} (h : Joins (es ++ [e]) past call flight) :
    past = es ∨ Joins es past call flight := by
  obtain ⟨e', request, he', hc, hat⟩ := h
  rcases List.prefix_concat_iff.mp he' with heq | hpre
  · exact .inl (List.append_inj' heq rfl).1
  · exact .inr ⟨e', request, hpre, hc, hat⟩

/-- A call joins the flight in the open slot of its scope. -/
theorem Joins.opened {call flight : Nat} (h : Joins es past call flight) :
    ∃ scope, (after past).flights.Open scope flight := by
  obtain ⟨e, request, _, hc, hat⟩ := h
  rw [after_concat] at hat
  rcases moves hat with ⟨_, hno⟩ | hmove
  · exact absurd hc (hno request)
  · cases hmove with
    | wait _ hopen => exact ⟨request.scope, hopen⟩

theorem Joins.mem {call flight : Nat} (h : Joins es past call flight) :
    call ∈ (after es).calls := by
  obtain ⟨e, request, he, _, hat⟩ := h
  exact after_mono (P := fun t => call ∈ t.calls) (fun _ _ => mem_calls_step) he
    (mem_calls_iff.mpr ⟨_, _, hat⟩)

/-- A call that waits still waits for the flight it joined, unless that has landed. -/
theorem Joins.waits {call flight f : Nat} {request : Request} (h : Joins es past call flight)
    (hat : (after es).At call request (.waiting f)) : f = flight ∨ flight ∈ (after es).landed := by
  induction es using List.reverseRecOn generalizing f request with
  | nil => exact absurd hat not_at_nil
  | append_singleton es e ih =>
    rcases joins_concat h with rfl | hold
    · obtain ⟨e', r, he', _, hjoined⟩ := h
      rw [he'.event_unique (happens_concat _ e)] at hjoined
      cases (hat.unique hjoined).2
      exact .inl rfl
    · rw [after_concat] at hat ⊢
      rcases moves hat with ⟨hbefore, _⟩ | hmove
      · exact (ih hold hbefore).imp_right landed_step
      · cases hmove with
        | wait hc _ =>
          -- It claims again, so the flight it has waited for so far was lost.
          obtain ⟨r, p, hbefore⟩ := mem_calls_iff.mp hold.mem
          obtain ⟨-, f', rfl, hl⟩ := hbefore.waits_of_claimant hc
          right
          rcases ih hold hbefore with rfl | hlanded
          · exact landed_step (mem_landed_iff.mpr ⟨_, hl⟩)
          · exact landed_step hlanded

theorem Joins.at_moment {past' : List (Event ε)} {call flight : Nat} (h : Joins es past call flight)
    (he : Happens es past e) (hlater : Happens past' past e) : Joins past' past call flight := by
  obtain ⟨e', request, he', hc, hat⟩ := h
  rw [he'.event_unique he] at hc hat
  exact ⟨e, request, hlater, hc, hat⟩

theorem Joins.not_again {past' : List (Event ε)} {call flight : Nat} (h : Joins es past call flight)
    (h' : Joins es past' call flight) (he : Happens es past e) : ¬ Happens past' past e := by
  intro hlater
  have hjoined := h.at_moment he hlater
  obtain ⟨r, p, hat⟩ := mem_calls_iff.mp hjoined.mem
  obtain ⟨scope, hopen⟩ := h'.opened
  obtain ⟨_, _, _, hc, _⟩ := h'
  obtain ⟨-, f, rfl, hl⟩ := hat.waits_of_claimant hc
  refine not_landed_of_open hopen ?_
  rcases hjoined.waits hat with rfl | hlanded
  · exact mem_landed_iff.mpr ⟨_, hl⟩
  · exact hlanded

/-- A call joins a flight at most once. -/
theorem Joins.once {past' : List (Event ε)} {call flight : Nat} (h : Joins es past call flight)
    (h' : Joins es past' call flight) : past = past' := by
  obtain ⟨e, _, he, _⟩ := id h
  obtain ⟨e', _, he', _⟩ := id h'
  exact he.same he' (h.not_again h' he) (h'.not_again h he')

/-! ### Claiming again -/

theorem Loses.mono {es' : List (Event ε)} {call flight : Nat} {scope : Scope}
    (h : Loses es call scope flight) (hes : es <+: es') : Loses es' call scope flight := by
  obtain ⟨past, request, hscope, hat, hends⟩ := h
  refine ⟨past, request, hscope, hat, ?_⟩
  rcases hends with hcancel | ⟨cause, seconds, hfail⟩
  · exact .inl (hcancel.mono hes)
  · exact .inr ⟨cause, seconds, hfail.mono hes⟩

theorem Loses.leads {call flight : Nat} {scope : Scope} (h : Loses es call scope flight) :
    ∃ start request, Leads es start call request flight ∧ request.scope = scope := by
  obtain ⟨past, request, hscope, hat, hends⟩ := h
  have hpast : past <+: es := by
    rcases hends with hcancel | ⟨_, _, hfail⟩
    · exact hcancel.isPrefix
    · exact hfail.isPrefix
  obtain ⟨start, hleads, _⟩ := leading_from hat
  exact ⟨start, request, hleads.mono hpast, hscope⟩

/-- A flight that was lost has landed. -/
theorem Loses.landed {call flight : Nat} {scope : Scope} (h : Loses es call scope flight) :
    flight ∈ (after es).landed := by
  have hlands : ∀ {past e outcome}, Happens es past e → Landing (after past) e flight outcome →
      flight ∈ (after es).landed := by
    intro past e outcome he hlanding
    refine after_mono (P := fun t => flight ∈ t.landed) (fun _ _ => landed_step) he ?_
    rw [after_concat]
    exact hlanding.landed
  obtain ⟨past, request, _, hat, hcancel | ⟨cause, seconds, hfail⟩⟩ := h
  · exact hlands hcancel (.cancel hat)
  · exact hlands hfail (.viewEnds hat)

/-- A flight that landed without a view was lost by the call that led it. -/
theorem lost_from {flight : Nat} (h : (after es).landed[flight]? = some none) :
    ∃ call scope, Loses es call scope flight := by
  induction es using List.reverseRecOn with
  | nil => simp [after, run, empty] at h
  | append_singleton es e ih =>
    rw [after_concat] at h
    rcases landing h with hold | hnew
    · obtain ⟨call, scope, hloses⟩ := ih hold
      exact ⟨call, scope, hloses.mono (List.prefix_append es [e])⟩
    · generalize hnone : (none : Option String) = outcome at hnew
      cases hnew with
      | @viewEnds call request _ result seconds hat =>
        cases result with
        | ok html => cases hnone
        | error cause =>
          exact ⟨call, request.scope, es, request, rfl, hat,
            .inr ⟨cause, seconds, happens_concat es _⟩⟩
      | @cancel call request _ hat =>
        exact ⟨call, request.scope, es, request, rfl, hat, .inl (happens_concat es _)⟩

/-- The flight that a call waits for in vain was lost by another call. -/
theorem lost_by_other {call flight : Nat} {request : Request}
    (h : (after es).At call request (.waiting flight))
    (hl : (after es).landed[flight]? = some none) :
    ∃ other, other ≠ call ∧ Loses es other request.scope flight := by
  obtain ⟨_, leader, r, hleads, hscope, hne⟩ := leads_of_waiting h
  obtain ⟨other, scope, hloses⟩ := lost_from hl
  obtain ⟨_, r', hleads', rfl⟩ := hloses.leads
  obtain ⟨-, rfl, rfl⟩ := hleads'.unique hleads
  rw [hscope] at hloses
  exact ⟨other, hne, hloses⟩

/-- To what a call owes its claims: flights that others led for its scope and lost,
none of which it waits for now. -/
theorem claims_from {call : Nat} {request : Request} {phase : Phase ε}
    (h : (after es).At call request phase) :
    ∃ lost : Finset Nat, claimsOf es call ≤ lost.card + 1 ∧
      (∀ flight ∈ lost, ∃ other, other ≠ call ∧ Loses es other request.scope flight) ∧
      ∀ flight, phase = .waiting flight → flight ∉ lost := by
  induction es using List.reverseRecOn generalizing request phase with
  | nil => exact absurd h not_at_nil
  | append_singleton es e ih =>
    have hpre := List.prefix_append es [e]
    rw [after_concat] at h
    by_cases hmem : call ∈ (after es).calls
    · obtain ⟨r, p, hbefore⟩ := mem_calls_iff.mp hmem
      obtain rfl := hbefore.request_eq h
      obtain ⟨lost, hcount, hlost, hwaits⟩ := ih hbefore
      have hmono : ∀ {flight}, (∃ other, other ≠ call ∧ Loses es other request.scope flight) →
          ∃ other, other ≠ call ∧ Loses (es ++ [e]) other request.scope flight := by
        rintro flight ⟨other, hne, hloses⟩
        exact ⟨other, hne, hloses.mono hpre⟩
      by_cases hc : ∃ r, (after es).claimant? e = some (call, r)
      · -- One more claim, and one more flight that was lost.
        obtain ⟨_, hc⟩ := hc
        obtain ⟨rfl, flight, rfl, hl⟩ := hbefore.waits_of_claimant hc
        refine ⟨insert flight lost, ?_, ?_, ?_⟩
        · rw [claimsOf_concat_of_claimant hc, Finset.card_insert_of_notMem (hwaits flight rfl)]
          omega
        · intro f hf
          rcases Finset.mem_insert.mp hf with rfl | hf
          · exact hmono (lost_by_other hbefore hl)
          · exact hmono (hlost f hf)
        · -- It can only have joined a flight that has not landed.
          rintro f rfl hf
          rcases moves h with ⟨_, hno⟩ | hmove
          · exact hno _ hc
          · cases hmove with
            | wait _ hopen =>
              refine not_landed_of_open hopen ?_
              rcases Finset.mem_insert.mp hf with rfl | hf
              · exact mem_landed_iff.mpr ⟨_, hl⟩
              · obtain ⟨_, _, hloses⟩ := hlost f hf
                exact hloses.landed
      · have hno : ∀ r, (after es).claimant? e ≠ some (call, r) := fun r hr => hc ⟨r, hr⟩
        refine ⟨lost, ?_, fun f hf => hmono (hlost f hf), ?_⟩
        · rwa [claimsOf_concat_of_not hno]
        · rintro f rfl
          rcases moves h with ⟨hkept, _⟩ | hmove
          · exact hwaits f (hbefore.unique hkept).2
          · cases hmove with
            | wait hc' _ => exact absurd hc' (hno _)
    · refine ⟨∅, ?_, by simp, by simp⟩
      rw [claimsOf_concat, claimsOf_of_not_mem hmem, Nat.zero_add, Finset.card_empty]
      exact Bool.toNat_le _

/-- A call claims at most once more than there are others that led for its scope and
ended without a view. -/
theorem claims_le {call : Nat} {request : Request} {phase : Phase ε}
    (h : (after es).At call request phase) :
    ∃ others : Finset Nat, claimsOf es call ≤ others.card + 1 ∧
      ∀ other ∈ others, other ≠ call ∧ ∃ flight, Loses es other request.scope flight := by
  obtain ⟨lost, hcount, hlost, _⟩ := claims_from h
  choose! leader hleader using hlost
  refine ⟨lost.image leader, ?_, ?_⟩
  · -- Every call leads one flight, so different flights were lost by different calls.
    rw [Finset.card_image_of_injOn]
    · exact hcount
    · intro f hf f' hf' hsame
      obtain ⟨_, _, hleads, _⟩ := (hleader f hf).2.leads
      obtain ⟨_, _, hleads', _⟩ := (hleader f' hf').2.leads
      rw [show leader f = leader f' from hsame] at hleads
      obtain rfl := hleads.once hleads'
      rw [hleads.number.1, hleads'.number.1]
  · intro other hother
    obtain ⟨f, hf, rfl⟩ := Finset.mem_image.mp hother
    exact ⟨(hleader f hf).1, f, (hleader f hf).2⟩

end SharedViews.Traffic

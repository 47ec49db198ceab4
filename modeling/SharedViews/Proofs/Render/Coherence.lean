import SharedViews.Engine
import SharedViews.Proofs.Render.History

/-! Cache coherence.

What a scope's slot, cache and calls hold can be traced to a view run of the scope
that started in the right epoch. An open slot has a flight that started in the
current epoch (`open_from`); so has the flight whose view the cache holds
(`view_from`), because only the flight in the open slot may store its view; and a
shared call returns what a flight brought that started in the epoch of the call's
last claim (`returned_from`): a hit reads the cache of that moment, a waiter joined
the open slot of that moment, a leader started there itself. -/
namespace SharedViews.Traffic
open Std
variable {ε : Type} {es : List (Event ε)}

/-- The flight in an open slot started in the current epoch of the scope. -/
theorem open_from {scope : Scope} {flight : Nat} (h : (after es).flights.Open scope flight) :
    ∃ start call request, Leads es start call request flight ∧ request.scope = scope ∧
      epoch scope start = epoch scope es := by
  induction es using List.reverseRecOn with
  | nil => simp [Flights.Open, after, run, empty, Flights.empty] at h
  | append_singleton es e ih =>
    have hpre := List.prefix_append es [e]
    -- In the current epoch unless the event drops, and then no slot is open.
    have hkept : (after es).flights.Open scope flight → drops scope e = false →
        ∃ start call request, Leads (es ++ [e]) start call request flight ∧
          request.scope = scope ∧ epoch scope start = epoch scope (es ++ [e]) := by
      intro hopen he
      obtain ⟨start, call, request, hleads, hscope, hepoch⟩ := ih hopen
      exact ⟨start, call, request, hleads.mono hpre, hscope,
        hepoch.trans (epoch_concat_of_not_drops he).symm⟩
    rw [after_concat] at h
    cases (after es).shifts e scope with
    | keep he hslot _ => exact hkept (by rwa [Flights.Open, hslot] at h) he
    | @start call request hc hscope _ _ hopen hlead _ =>
      have hflight := h.unique hopen
      subst hflight
      refine ⟨es, call, request, ⟨e, happens_concat es e, hc, ?_⟩, hscope, ?_⟩
      · rwa [after_concat]
      · exact (epoch_concat_of_not_drops (drops_of_claimant scope hc)).symm
    | land he _ _ hslot _ _ =>
      rw [Flights.Open, hslot] at h
      split at h
      · cases h
      · exact hkept h he
    | drop _ hslot _ =>
      rw [Flights.Open, hslot] at h
      obtain ⟨flight', _, hstale⟩ := Option.map_eq_some_iff.mp h
      cases hstale

/-- The leader of the flight in an open slot has led it since the current epoch. -/
theorem leads_of_open {call flight : Nat} {request : Request} {scope : Scope}
    (hat : (after es).At call request (.leading flight))
    (hopen : (after es).flights.Open scope flight) :
    ∃ start, Leads es start call request flight ∧ request.scope = scope ∧
      epoch scope start = epoch scope es := by
  obtain ⟨start, hleads, _⟩ := leading_from hat
  obtain ⟨start', call', request', hleads', hscope, hepoch⟩ := open_from hopen
  obtain ⟨rfl, rfl, rfl⟩ := hleads.unique hleads'
  exact ⟨start, hleads, hscope, hepoch⟩

/-- The view that a scope holds came from a flight of the current epoch. -/
theorem view_from {scope : Scope} {html : String}
    (h : (after es).flights.view? scope = some html) :
    ∃ start leader, Yields es start leader scope html ∧ epoch scope start = epoch scope es := by
  induction es using List.reverseRecOn with
  | nil => simp [Flights.view?, RenderedViews.get?, RenderedViews.empty, after, run, empty,
      Flights.empty] at h
  | append_singleton es e ih =>
    have hpre := List.prefix_append es [e]
    have hkept : (after es).flights.view? scope = some html → drops scope e = false →
        ∃ start leader, Yields (es ++ [e]) start leader scope html ∧
          epoch scope start = epoch scope (es ++ [e]) := by
      intro hview he
      obtain ⟨start, leader, hyields, hepoch⟩ := ih hview
      exact ⟨start, leader, hyields.mono hpre, hepoch.trans (epoch_concat_of_not_drops he).symm⟩
    rw [after_concat] at h
    cases (after es).shifts e scope with
    | keep he _ hview => exact hkept (hview ▸ h) he
    | start _ _ _ _ _ _ hview =>
      rw [hview] at h
      cases h
    | @land call request flight he hat _ _ _ hview =>
      rcases hview with hview | ⟨html', seconds, rfl, hopen, hset⟩
      · exact hkept (hview ▸ h) he
      · have hhtml : html' = html := by
          rw [hset] at h
          simpa using h
        subst hhtml
        obtain ⟨start, hleads, hscope, hepoch⟩ := leads_of_open hat hopen
        refine ⟨start, call, ⟨request, flight, es, seconds, hscope, hleads.mono hpre,
          happens_concat es _, hat⟩, ?_⟩
        exact hepoch.trans (epoch_concat_of_not_drops he).symm
    | drop _ _ hview =>
      rw [hview] at h
      cases h

/-- A shared call returns the view of a flight that started in the epoch of the
call's last claim. -/
theorem returned_from {call : Nat} {request : Request} {html : String}
    (h : (after es).At call request (.returned (.ok html))) (hr : request.isShared = true) :
    ∃ claim start leader, LastClaim es claim call request ∧
      Yields es start leader request.scope html ∧
      epoch request.scope start = epoch request.scope claim := by
  induction es using List.reverseRecOn with
  | nil => exact absurd h not_at_nil
  | append_singleton es e ih =>
    have hpre := List.prefix_append es [e]
    rw [after_concat] at h
    rcases moves h with ⟨hat, hno⟩ | hmove
    · obtain ⟨claim, start, leader, hlast, hyields, hepoch⟩ := ih hat
      exact ⟨claim, start, leader, hlast.concat hno, hyields.mono hpre, hepoch⟩
    · cases hmove with
      | viewed hat =>
        rw [viewing_private hat] at hr
        cases hr
      | hit hc hview =>
        obtain ⟨start, leader, hyields, hepoch⟩ := view_from hview
        exact ⟨es, start, leader, lastClaim_concat hc, hyields.mono hpre, hepoch⟩
      | @land _ _ flight _ seconds hat =>
        obtain ⟨start, hleads, hlast⟩ := leading_from hat
        refine ⟨start, start, call, hlast.concat ?_, ?_, rfl⟩
        · intro _ hc
          cases hc
        · exact ⟨request, flight, es, seconds, rfl, hleads.mono hpre, happens_concat es _, hat⟩
      | served hat hl =>
        obtain ⟨claim, hlast, hopen⟩ := waiting_from hat
        obtain ⟨start, leader, request', hleads, hscope, hepoch⟩ := open_from hopen
        obtain ⟨start', leader', request'', hleads', hyields⟩ := landed_from hl
        obtain ⟨e', he', _⟩ := hlast.1
        obtain ⟨rfl, rfl, rfl⟩ := (hleads.mono he'.isPrefix).unique hleads'
        rw [hscope] at hyields
        refine ⟨claim, start, leader, hlast.concat ?_, hyields.mono hpre, hepoch⟩
        intro _ hc
        unfold At at hat
        simp [claimant?, hat, hl] at hc

/-- A view run of the epoch of a later claim started after every earlier drop. -/
theorem drop_before_start {scope : Scope} {start claim write : List (Event ε)} {e : Event ε}
    (hstart : start <+: es) (hclaim : claim <+: es)
    (hepoch : epoch scope start = epoch scope claim) (hwrite : Happens claim write e)
    (he : drops scope e = true) : Happens start write e := by
  have hlt := epoch_lt_of_drops hwrite he
  have hall : Happens es write e := hwrite.mono hclaim
  rcases Nat.lt_or_ge write.length start.length with hlen | hlen
  · exact List.prefix_of_prefix_length_le hall hstart (by simpa using Nat.succ_le_of_lt hlen)
  · have hpre := List.prefix_of_prefix_length_le hstart hall.isPrefix hlen
    have hle := epoch_mono scope hpre
    omega

/-- **Cache coherence.** After every history, the update view a scope holds is the
html of a view run of that scope which started in the scope's current epoch; and
html returned by a shared call is that of a view run of its scope which started in
the epoch of the call's last claim, so after everything that dropped the scope's
views before the call arrived. A signal write is such a drop. -/
theorem cache_coherent (es : List (Event ε)) (scope : Scope) :
    (∀ html, (after es).flights.cache.get? scope .update = some html →
      ∃ start leader, Yields es start leader scope html ∧ epoch scope start = epoch scope es) ∧
    (∀ call request html, (after es).At call request (.returned (.ok html)) →
      request.isShared = true → request.scope = scope →
      ∃ claim start leader, LastClaim es claim call request ∧
        Yields es start leader scope html ∧ epoch scope start = epoch scope claim ∧
        ∀ arrival seconds write e, Happens es arrival (.arrive call request seconds) →
          (after arrival).calls[call]? = none → Happens arrival write e →
          drops scope e = true → Happens start write e) ∧
    ∀ (engine : Engine) key value,
      (engine.writeSignal scope key value).traffic = engine.traffic.step (.invalidate scope) := by
  refine ⟨fun html h => view_from h, ?_, fun _ _ _ => rfl⟩
  intro call request html h hr hscope
  subst hscope
  obtain ⟨claim, start, leader, hlast, hyields, hepoch⟩ := returned_from h hr
  refine ⟨claim, start, leader, hlast, hyields, hepoch, ?_⟩
  intro arrival seconds write e harrive hnew hwrite he
  have hfirst : Claims es arrival call request := by
    refine ⟨_, harrive, ?_⟩
    have hcontains : call ∉ (after arrival).calls := by simpa using hnew
    simp [claimant?, hcontains, hr]
  have hclaim : claim <+: es := by
    obtain ⟨_, hhappens, _⟩ := hlast.1
    exact hhappens.isPrefix
  have hstart : start <+: es := by
    obtain ⟨_, _, _, _, _, hleads, _⟩ := hyields
    exact hleads.isPrefix
  exact drop_before_start hstart hclaim hepoch (hwrite.mono (hlast.2 arrival request hfirst)) he

/-- An update of the global scope that takes part in caching. -/
def globalUpdate : Request := ⟨.global, .update, true⟩

/-- A view run that a second call waits for is overtaken by a drop; a later call runs
the view again, and one more is served from the cache. -/
def overtaken : List (Event String) :=
  [.arrive 0 globalUpdate 0.0, .arrive 1 globalUpdate 0.0, .invalidate .global,
    .viewEnds 0 (.ok "old") 0.0, .resume 1 0.0, .arrive 2 globalUpdate 0.0,
    .viewEnds 2 (.ok "new") 0.0, .arrive 3 globalUpdate 0.0]

/-- What the last call returns is from a run that started after the drop. -/
theorem cache_coherent_overtaken :
    (after overtaken).At 3 globalUpdate (.returned (.ok "new")) ∧
      globalUpdate.isShared = true ∧
      Happens overtaken (overtaken.take 7) (.arrive 3 globalUpdate 0.0) ∧
      Happens (overtaken.take 7) (overtaken.take 2) (.invalidate .global) ∧
      ∃ start leader, Yields overtaken start leader .global "new" ∧
        Happens start (overtaken.take 2) (.invalidate .global) := by
  have hat : (after overtaken).At 3 globalUpdate (.returned (.ok "new")) := rfl
  have harrive : Happens overtaken (overtaken.take 7) (.arrive 3 globalUpdate 0.0) := ⟨[], rfl⟩
  have hdrop : Happens (overtaken.take 7) (overtaken.take 2) (.invalidate .global) := ⟨_, rfl⟩
  obtain ⟨_, hreturned, _⟩ := cache_coherent overtaken .global
  obtain ⟨_, start, leader, _, hyields, _, hlater⟩ := hreturned 3 globalUpdate "new" hat rfl rfl
  exact ⟨hat, rfl, harrive, hdrop, start, leader, hyields,
    hlater _ 0.0 _ _ harrive rfl hdrop rfl⟩

end SharedViews.Traffic

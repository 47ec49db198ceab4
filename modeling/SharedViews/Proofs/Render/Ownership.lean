import SharedViews.Proofs.Render.Leaders

/-! Who owns a scope's slot.

The marks of the cache are on the scopes that have a slot, and the cache holds update
views of shared scopes only (`Flights.Proper`). A slot belongs to the one leader whose
flight is in it. A leader can live on after a later one has claimed its scope; it is
then superseded, which is the same as not owning the slot (`superseded_iff`), and its
end leaves cache, slots and marks as they are (`flights_lands_of_not_owns`). -/
namespace SharedViews.Flights
open Std

/-- Marks stand for slots, and every view is an update view of a shared scope. -/
structure Proper (fs : Flights) : Prop where
  marked : ∀ scope, fs.cache.isMarked scope = true ↔ scope ∈ fs.slots
  views : ∀ scope kind html, fs.cache.get? scope kind = some html →
    scope.isShared = true ∧ kind = .update

theorem proper_empty : Proper empty where
  marked scope := by simp [empty, RenderedViews.empty, RenderedViews.isMarked]
  views scope kind html h := by simp [empty, RenderedViews.empty, RenderedViews.get?] at h

theorem Proper.of_same {fs fs' : Flights} (h : fs.Proper) (hcache : fs'.cache = fs.cache)
    (hslots : fs'.slots = fs.slots) : fs'.Proper where
  marked scope := by
    rw [hcache, hslots]
    exact h.marked scope
  views scope kind html hview := by
    rw [hcache] at hview
    exact h.views scope kind html hview

theorem Proper.start {fs : Flights} (h : fs.Proper) (scope : Scope) : (fs.start scope).Proper where
  marked other := by
    show (fs.cache.mark scope true).isMarked other = true ↔ other ∈ fs.slots.insert scope _
    rw [RenderedViews.isMarked_mark, ExtTreeMap.mem_insert, Std.compare_eq_iff_eq, ← h.marked other]
    split <;> simp_all
  views other kind html hview := h.views other kind html hview

theorem Proper.free {fs : Flights} (h : fs.Proper) (scope : Scope) : (fs.free scope).Proper where
  marked other := by
    show (fs.cache.mark scope false).isMarked other = true ↔ other ∈ fs.slots.erase scope
    rw [RenderedViews.isMarked_mark, ExtTreeMap.mem_erase, Ne, Std.compare_eq_iff_eq,
      ← h.marked other]
    split <;> simp_all
  views other kind html hview := h.views other kind html hview

theorem Proper.abandon {fs : Flights} (h : fs.Proper) (scope : Scope) (flight : Nat) :
    (fs.abandon scope flight).Proper := by
  unfold Flights.abandon
  split
  · exact h.free scope
  · exact h

theorem Proper.deliver {fs : Flights} (h : fs.Proper) (scope : Scope) (flight : Nat)
    (html : String) : (fs.deliver scope flight html).Proper := by
  have hfreed := h.abandon scope flight
  by_cases hopen : fs.Open scope flight
  · rw [deliver_of_open html hopen]
    refine ⟨fun other => ?_, fun other kind out hview => ?_⟩
    · have hsame : ((fs.abandon scope flight).cache.set scope html .update).isMarked other =
          (fs.abandon scope flight).cache.isMarked other := by
        unfold RenderedViews.set
        split <;> rfl
      rw [hsame]
      exact hfreed.marked other
    · rw [RenderedViews.get?_set] at hview
      split at hview
      · rename_i hstored
        obtain ⟨hshared, rfl, rfl⟩ := hstored
        exact ⟨hshared, rfl⟩
      · exact hfreed.views other kind out hview
  · rw [deliver_of_not_open html hopen]
    exact hfreed

theorem Proper.invalidate {fs : Flights} (h : fs.Proper) (scope : Scope) :
    (fs.invalidate scope).Proper where
  marked other := by
    show fs.cache.isMarked other = true ↔ other ∈ fs.slots.modify scope _
    rw [ExtTreeMap.mem_modify]
    exact h.marked other
  views other kind html hview := by
    have hget : (fs.cache.invalidate scope).get? other kind = some html := hview
    rw [RenderedViews.get?_invalidate] at hget
    split at hget
    · cases hget
    · exact h.views other kind html hget

theorem Proper.clear {fs : Flights} (h : fs.Proper) : fs.clear.Proper where
  marked other := by
    show fs.cache.isMarked other = true ↔ other ∈ fs.slots.map _
    rw [ExtTreeMap.mem_map]
    exact h.marked other
  views other kind html hview := by
    have hget : fs.cache.clear.get? other kind = some html := hview
    rw [RenderedViews.get?_clear] at hget
    cases hget

/-- A flight without its slot frees nothing and stores nothing when it ends. -/
theorem abandon_of_not_owns {fs : Flights} {scope : Scope} {flight : Nat}
    (h : ¬ fs.owns scope flight = true) : fs.abandon scope flight = fs := if_neg h

theorem deliver_of_not_owns {fs : Flights} {scope : Scope} {flight : Nat} (html : String)
    (h : ¬ fs.owns scope flight = true) : fs.deliver scope flight html = fs := by
  rw [deliver_of_not_open html fun hopen => h hopen.owns, abandon_of_not_owns h]

end Flights

namespace Traffic
open Std
variable {ε : Type} {es : List (Event ε)} {t : Traffic ε}

theorem proper_lands (h : t.flights.Proper) (scope : Scope) (flight : Nat) (html : Option String) :
    (t.lands scope flight html).flights.Proper := by
  cases html with
  | none => exact h.abandon scope flight
  | some html => exact h.deliver scope flight html

theorem proper_step (h : t.flights.Proper) (e : Event ε) : (t.step e).flights.Proper := by
  generalize ht : t.step e = t'
  have hturn := t.turn e
  rw [ht] at hturn
  cases hturn with
  | lead _ _ _ => exact h.start _
  | land _ => exact (proper_lands h _ _ _).of_same rfl rfl
  | lose _ => exact proper_lands h _ _ none
  | invalidate scope => exact h.invalidate scope
  | clear => exact h.clear
  | _ => exact h.of_same rfl rfl

theorem proper_after (es : List (Event ε)) : (after es).flights.Proper := by
  induction es using List.reverseRecOn with
  | nil => exact Flights.proper_empty
  | append_singleton es e ih =>
    rw [after_concat]
    exact proper_step ih e

/-! ### Superseded leaders -/

/-- A later leader has claimed the scope. -/
def Superseded (es start : List (Event ε)) (scope : Scope) : Prop :=
  ∃ start' e call request flight, Leads es start' call request flight ∧ request.scope = scope ∧
    Happens start' start e

theorem Superseded.mono {es' start : List (Event ε)} {scope : Scope} (h : Superseded es start scope)
    (hes : es <+: es') : Superseded es' start scope := by
  obtain ⟨start', e, call, request, flight, hleads, hscope, hlater⟩ := h
  exact ⟨start', e, call, request, flight, hleads.mono hes, hscope, hlater⟩

/-- A leader has the slot of its scope unless it was superseded. -/
theorem owns_or_superseded {start : List (Event ε)} {call flight : Nat} {request : Request}
    (hat : (after es).At call request (.leading flight))
    (hleads : Leads es start call request flight) :
    (after es).flights.owns request.scope flight = true ∨ Superseded es start request.scope := by
  induction es using List.reverseRecOn with
  | nil => exact absurd hat not_at_nil
  | append_singleton es e ih =>
    have hpre := List.prefix_append es [e]
    have hafter := hat
    rw [after_concat] at hafter
    rcases leading_before hafter with hbefore | hc
    · have hold := hleads.of_leading hpre hbefore
      rcases ih hbefore hold with howns | hsuper
      · obtain ⟨stale, hslot⟩ := (Flights.owns_iff _ _ _).mp howns
        rw [after_concat, Flights.owns_iff]
        cases (after es).shifts e request.scope with
        | keep _ hsame _ => exact .inl ⟨stale, hsame.trans hslot⟩
        | @start call' request' hc hscope _ _ _ hlead _ =>
          right
          obtain ⟨e', he', _⟩ := hold
          rw [← after_concat] at hlead
          exact ⟨es, e', call', request', _, ⟨e, happens_concat es e, hc, hlead⟩, hscope, he'⟩
        | @land call' request' flight' _ hat' _ hsame hend _ =>
          by_cases hgone : (after es).flights.owns request.scope flight' = true
          · -- The flight that lands has the slot, so it is the call's own.
            obtain ⟨_, hslot'⟩ := (Flights.owns_iff _ _ _).mp hgone
            have hflight : flight' = flight :=
              congrArg Flight.number (Option.some.inj (hslot'.symm.trans hslot))
            subst hflight
            obtain rfl := leader_unique hbefore hat'
            obtain ⟨rfl, -⟩ := hbefore.unique hat'
            exact absurd hafter (hend flight')
          · rw [if_neg hgone] at hsame
            exact .inl ⟨stale, hsame.trans hslot⟩
        | drop _ hsame _ =>
          rw [hslot] at hsame
          exact .inl ⟨true, hsame⟩
      · exact .inr (hsuper.mono hpre)
    · have hnow : Leads (es ++ [e]) es call request flight := ⟨e, happens_concat es e, hc, hat⟩
      obtain rfl := hleads.once hnow
      exact .inl (open_of_start hleads).owns

/-- A leader is superseded exactly when it does not have the slot of its scope. -/
theorem superseded_iff {start : List (Event ε)} {call flight : Nat} {request : Request}
    (hat : (after es).At call request (.leading flight))
    (hleads : Leads es start call request flight) :
    Superseded es start request.scope ↔ ¬ (after es).flights.owns request.scope flight = true := by
  constructor
  · intro hsuper howns
    obtain ⟨start', e, call', request', flight', hleads', hscope, hlater⟩ := hsuper
    obtain ⟨stale, hslot⟩ := (Flights.owns_iff _ _ _).mp howns
    rw [← hscope] at hslot
    have hle : flight' ≤ flight := hleads'.le_slot hslot
    obtain ⟨e', he', _⟩ := id hleads
    obtain ⟨e'', he'', _⟩ := id hleads'
    have hevent := (hlater.mono he''.isPrefix).event_unique he'
    subst hevent
    have hbefore := (hleads.at_moment he' hlater).le_lastFlight
    have hnumber := hleads'.number.1
    omega
  · intro hnot
    exact (owns_or_superseded hat hleads).resolve_left hnot

theorem flights_lands_of_not_owns {scope : Scope} {flight : Nat} (html : Option String)
    (h : ¬ t.flights.owns scope flight = true) :
    (t.lands scope flight html).flights = t.flights := by
  cases html with
  | none => exact Flights.abandon_of_not_owns h
  | some html => exact Flights.deliver_of_not_owns html h

/-- **Ownership.** After every history: the marked scopes are those with a slot; the
flight in a slot has one live leader, which leads for the slot's scope; no two leaders
that ever started have the same flight number, and none has one that was not given
out; a scope that holds an update view has no slot; neither the tab scope nor the
first loads have a view stored; and the end of a leader after which another claimed
the scope, by its view or by being cancelled, leaves views, marks and slots alone. -/
theorem slots_owned (es : List (Event ε)) :
    (∀ scope, (after es).flights.cache.isMarked scope = true ↔ scope ∈ (after es).flights.slots) ∧
    (∀ (scope : Scope) flight, (after es).flights.slots[scope]? = some flight →
      ∃ call request, (after es).At call request (.leading flight.number) ∧
        request.scope = scope ∧
        ∀ call' request', (after es).At call' request' (.leading flight.number) → call' = call) ∧
    (∀ start call request flight, Leads es start call request flight →
      flight ≤ (after es).flights.lastFlight ∧
        ∀ start' call' request', Leads es start' call' request' flight →
          start' = start ∧ call' = call) ∧
    (∀ scope html, (after es).flights.cache.get? scope .update = some html →
      scope ∉ (after es).flights.slots) ∧
    (∀ kind, (after es).flights.cache.get? .tab kind = none) ∧
    (∀ scope, (after es).flights.cache.get? scope .initial = none) ∧
    ∀ start call request flight, (after es).At call request (.leading flight) →
      Leads es start call request flight → Superseded es start request.scope →
      ∀ e, (e = .cancel call ∨ ∃ outcome seconds, e = .viewEnds call outcome seconds) →
        ((after es).step e).flights.cache = (after es).flights.cache ∧
          ((after es).step e).flights.slots = (after es).flights.slots := by
  have hproper := proper_after es
  refine ⟨hproper.marked, ?_, ?_, ?_, ?_, ?_, ?_⟩
  · intro scope flight hslot
    obtain ⟨call, request, hat, hscope⟩ := leader_of_slot hslot
    exact ⟨call, request, hat, hscope, fun _ _ hat' => leader_unique hat hat'⟩
  · intro start call request flight hleads
    refine ⟨hleads.le_lastFlight, fun start' call' request' hleads' => ?_⟩
    obtain ⟨hstart, hcall, -⟩ := hleads'.unique hleads
    exact ⟨hstart, hcall⟩
  · intro scope html hview hmem
    have hnone := closed_of_view hview
    rw [ExtTreeMap.mem_iff_isSome_getElem?, hnone] at hmem
    cases hmem
  · intro kind
    rw [Option.eq_none_iff_forall_ne_some]
    intro html hview
    cases (hproper.views .tab kind html hview).1
  · intro scope
    rw [Option.eq_none_iff_forall_ne_some]
    intro html hview
    cases (hproper.views scope .initial html hview).2
  · intro start call request flight hat hleads hsuper e he
    have hnot := (superseded_iff hat hleads).mp hsuper
    rcases he with rfl | ⟨outcome, seconds, rfl⟩
    · have hsame := flights_lands_of_not_owns none hnot
      have hcache := congrArg Flights.cache hsame
      have hslots := congrArg Flights.slots hsame
      rw [step_cancel_of_leading hat]
      exact ⟨hcache, hslots⟩
    · have hsame := flights_lands_of_not_owns outcome.toOption hnot
      have hcache := congrArg Flights.cache hsame
      have hslots := congrArg Flights.slots hsame
      rw [step_viewEnds_of_leading hat]
      exact ⟨hcache, hslots⟩

/-- A flight of the global scope goes stale and is replaced while it is still led;
the view of a route is held meanwhile. -/
def replaced : List (Event String) :=
  [.arrive 0 ⟨.route "/", .update, true⟩ 0.0, .viewEnds 0 (.ok "home") 0.0,
    .arrive 1 globalUpdate 0.0, .invalidate .global, .arrive 2 globalUpdate 0.0]

/-- The first leader is superseded; when its view ends the slot stays the second's. -/
theorem slots_owned_replaced :
    (after replaced).flights.slots[Scope.global]? = some ⟨3, false⟩ ∧
      (after replaced).flights.cache.get? (.route "/") .update = some "home" ∧
      (after replaced).At 1 globalUpdate (.leading 2) ∧
      Leads replaced (replaced.take 2) 1 globalUpdate 2 ∧
      Superseded replaced (replaced.take 2) .global ∧
      Scope.route "/" ∉ (after replaced).flights.slots ∧
      (∀ call request, (after replaced).At call request (.leading 3) → call = 2) ∧
      ((after replaced).step (.viewEnds 1 (.ok "old") 0.0)).flights.slots =
        (after replaced).flights.slots := by
  have hslot : (after replaced).flights.slots[Scope.global]? = some ⟨3, false⟩ := rfl
  have hview : (after replaced).flights.cache.get? (.route "/") .update = some "home" := rfl
  have hat : (after replaced).At 1 globalUpdate (.leading 2) := rfl
  have hleads : Leads replaced (replaced.take 2) 1 globalUpdate 2 := ⟨_, ⟨_, rfl⟩, rfl, rfl⟩
  have hlater : Leads replaced (replaced.take 4) 2 globalUpdate 3 := ⟨_, ⟨_, rfl⟩, rfl, rfl⟩
  have hsuper : Superseded replaced (replaced.take 2) .global :=
    ⟨_, _, 2, globalUpdate, 3, hlater, rfl, ⟨_, rfl⟩⟩
  obtain ⟨_, howner, _, hheld, _, _, hends⟩ := slots_owned replaced
  obtain ⟨call, request, _, _, hunique⟩ := howner .global _ hslot
  have hsecond : 2 = call := hunique 2 globalUpdate rfl
  refine ⟨hslot, hview, hat, hleads, hsuper, hheld _ _ hview, ?_, ?_⟩
  · intro call' request' hat'
    exact (hunique call' request' hat').trans hsecond.symm
  · exact (hends _ _ _ _ hat hleads hsuper _ (.inr ⟨.ok "old", 0.0, rfl⟩)).2

end SharedViews.Traffic

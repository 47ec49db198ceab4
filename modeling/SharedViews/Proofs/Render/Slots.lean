import SharedViews.Render.Flights

/-! What claims, endings and invalidations do to slots and views.

One equation for each operation on the flights: the slot of any scope afterwards,
and the update view stored for any scope. A slot is open when a claim may join its
flight, so an open slot is one whose flight has not gone stale, and the number in
it is the flight's. Everything said about traffic later reads these equations and
not the operations. -/
namespace SharedViews.Flights
open Std

/-- The update view that the scope holds. -/
def view? (fs : Flights) (scope : Scope) : Option String := fs.cache.get? scope .update

/-- The scope's slot has the flight of that number, and it never went stale. -/
def Open (fs : Flights) (scope : Scope) (number : Nat) : Prop :=
  fs.slots[scope]? = some ⟨number, false⟩

theorem Open.unique {fs : Flights} {scope : Scope} {m n : Nat} (hm : fs.Open scope m)
    (hn : fs.Open scope n) : m = n := by
  have h := hm.symm.trans hn
  simpa using h

theorem joinable_eq_some {fs : Flights} {scope : Scope} {flight : Flight}
    (h : fs.joinable scope = some flight) : fs.Open scope flight.number := by
  obtain ⟨hslot, hfresh⟩ := Option.filter_eq_some_iff.mp h
  obtain ⟨number, stale⟩ := flight
  have hstale : stale = false := by simpa using hfresh
  rw [hstale] at hslot
  exact hslot

theorem Open.joinable {fs : Flights} {scope : Scope} {number : Nat} (h : fs.Open scope number) :
    fs.joinable scope = some ⟨number, false⟩ := by
  unfold Flights.joinable
  rw [h]
  rfl

theorem owns_iff (fs : Flights) (scope : Scope) (number : Nat) :
    fs.owns scope number = true ↔ ∃ stale, fs.slots[scope]? = some ⟨number, stale⟩ := by
  unfold owns
  cases hslot : fs.slots[scope]? with
  | none => simp
  | some flight =>
    obtain ⟨n, stale⟩ := flight
    simp

theorem Open.owns {fs : Flights} {scope : Scope} {number : Nat} (h : fs.Open scope number) :
    fs.owns scope number = true := (owns_iff fs scope number).mpr ⟨false, h⟩

/-! ### Claims -/

theorem claim_hit {fs : Flights} {scope : Scope} {html : String}
    (h : fs.view? scope = some html) : fs.claim scope = (.hit html, fs) := by
  have hget : fs.cache.get? scope .update = some html := h
  simp only [claim, hget]

theorem claim_wait {fs : Flights} {scope : Scope} {flight : Flight}
    (hview : fs.view? scope = none) (h : fs.joinable scope = some flight) :
    fs.claim scope = (.wait flight.number, fs) := by
  have hget : fs.cache.get? scope .update = none := hview
  simp only [claim, hget, h]

theorem claim_lead {fs : Flights} {scope : Scope} (hview : fs.view? scope = none)
    (h : fs.joinable scope = none) :
    fs.claim scope = (.lead (fs.lastFlight + 1), fs.start scope) := by
  have hget : fs.cache.get? scope .update = none := hview
  simp only [claim, hget, h]

theorem slots_start (fs : Flights) (scope other : Scope) :
    (fs.start scope).slots[other]? =
      if scope = other then some ⟨fs.lastFlight + 1, false⟩ else fs.slots[other]? := by
  simp [start, ExtTreeMap.getElem?_insert]

/-! ### Endings -/

theorem slots_abandon (fs : Flights) (scope other : Scope) (number : Nat) :
    (fs.abandon scope number).slots[other]? =
      if scope = other ∧ fs.owns scope number = true then none else fs.slots[other]? := by
  unfold abandon
  by_cases howns : fs.owns scope number = true
  · rw [if_pos howns]
    by_cases hs : scope = other
    · subst hs
      simp [free, howns]
    · simp [free, hs, ExtTreeMap.getElem?_erase]
  · rw [if_neg howns]
    simp [howns]

theorem view?_abandon (fs : Flights) (scope other : Scope) (number : Nat) :
    (fs.abandon scope number).view? other = fs.view? other := by
  unfold abandon
  split <;> rfl

theorem lastFlight_abandon (fs : Flights) (scope : Scope) (number : Nat) :
    (fs.abandon scope number).lastFlight = fs.lastFlight := by
  unfold abandon
  split <;> rfl

/-- Whether the flight's view would be stored: it has its slot, and the slot is open. -/
theorem fresh_iff (fs : Flights) (scope : Scope) (number : Nat) :
    ((fs.joinable scope).any fun f => f.number == number) = true ↔ fs.Open scope number := by
  constructor
  · intro h
    cases hflight : fs.joinable scope with
    | none =>
      rw [hflight] at h
      cases h
    | some flight =>
      rw [hflight] at h
      have hnumber : flight.number = number := by simpa using h
      rw [← hnumber]
      exact joinable_eq_some hflight
  · intro h
    rw [h.joinable]
    simp

theorem deliver_of_open {fs : Flights} {scope : Scope} {number : Nat} (html : String)
    (h : fs.Open scope number) : fs.deliver scope number html =
      {fs.abandon scope number with
        cache := (fs.abandon scope number).cache.set scope html .update} := by
  unfold deliver
  simp only [(fresh_iff fs scope number).mpr h, if_true]

/-- A flight that lost its slot, or went stale in it, leaves no view behind. -/
theorem deliver_of_not_open {fs : Flights} {scope : Scope} {number : Nat} (html : String)
    (h : ¬ fs.Open scope number) : fs.deliver scope number html = fs.abandon scope number := by
  have hfresh := mt (fresh_iff fs scope number).mp h
  unfold deliver
  simp only [hfresh]
  rfl

theorem slots_deliver (fs : Flights) (scope : Scope) (number : Nat) (html : String) :
    (fs.deliver scope number html).slots = (fs.abandon scope number).slots := by
  by_cases h : fs.Open scope number
  · rw [deliver_of_open html h]
  · rw [deliver_of_not_open html h]

theorem lastFlight_deliver (fs : Flights) (scope : Scope) (number : Nat) (html : String) :
    (fs.deliver scope number html).lastFlight = fs.lastFlight := by
  by_cases h : fs.Open scope number
  · rw [deliver_of_open html h]
    exact lastFlight_abandon fs scope number
  · rw [deliver_of_not_open html h, lastFlight_abandon]

theorem view?_deliver_of_open {fs : Flights} {scope : Scope} {number : Nat} (html : String)
    (other : Scope) (hshared : scope.isShared = true) (h : fs.Open scope number) :
    (fs.deliver scope number html).view? other =
      if scope = other then some html else fs.view? other := by
  rw [deliver_of_open html h]
  show ((fs.abandon scope number).cache.set scope html .update).get? other .update = _
  rw [RenderedViews.get?_set]
  by_cases hs : scope = other
  · rw [if_pos ⟨hshared, hs, rfl⟩, if_pos hs]
  · rw [if_neg fun hall => hs hall.2.1, if_neg hs]
    exact view?_abandon fs scope other number

theorem view?_deliver_of_not_open {fs : Flights} {scope : Scope} {number : Nat} (html : String)
    (other : Scope) (h : ¬ fs.Open scope number) :
    (fs.deliver scope number html).view? other = fs.view? other := by
  rw [deliver_of_not_open html h, view?_abandon]

/-! ### Invalidations -/

theorem slots_invalidate (fs : Flights) (scope other : Scope) :
    (fs.invalidate scope).slots[other]? =
      if scope = other then fs.slots[other]?.map fun flight => {flight with stale := true}
      else fs.slots[other]? := by
  by_cases hs : scope = other
  · subst hs
    simp [invalidate]
  · simp [invalidate, ExtTreeMap.getElem?_modify, hs]

theorem view?_invalidate (fs : Flights) (scope other : Scope) :
    (fs.invalidate scope).view? other = if scope = other then none else fs.view? other :=
  RenderedViews.get?_invalidate fs.cache scope other .update

theorem slots_clear (fs : Flights) (scope : Scope) :
    fs.clear.slots[scope]? = fs.slots[scope]?.map fun flight => {flight with stale := true} := by
  simp [clear]

theorem view?_clear (fs : Flights) (scope : Scope) : fs.clear.view? scope = none :=
  RenderedViews.get?_clear fs.cache scope .update

end SharedViews.Flights

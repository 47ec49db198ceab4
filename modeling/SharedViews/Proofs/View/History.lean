import SharedViews.Proofs.Moments
import SharedViews.Proofs.View.Occupancy

/-! The cache and its history.

A view is there if it was stored and since then neither another one was stored in its place nor
its scope dropped; a mark is there if it was set and has not been taken off since. One change
at a time decides that (`get?_step`, `isMarked_step`), so it is so after any changes, and all
that the cache answers follows from it (`follows_history`). -/
namespace SharedViews
open Std

/-- What is done to the cache. -/
inductive ViewChange
  | set (scope : Scope) (html : String) (kind : RenderKind)
  | invalidate (scope : Scope)
  | clear
  | mark (scope : Scope) (on : Bool)

namespace ViewChange

/-- Whatever view is stored under the key goes: another one takes its place, or none. -/
def Displaces (scope : Scope) (kind : RenderKind) : ViewChange → Prop
  | set other _ k => other = scope ∧ k = kind
  | invalidate other => other = scope
  | clear => True
  | mark .. => False

def isMark : ViewChange → Bool
  | mark .. => true
  | _ => false

end ViewChange

namespace RenderedViews
variable {c : RenderedViews} {scope : Scope} {kind : RenderKind} {html : String}

/-- Makes a change. An invalidation answers whether there was anything to drop. -/
def step (c : RenderedViews) : ViewChange → Option Bool × RenderedViews
  | .set scope html kind => (none, c.set scope html kind)
  | .invalidate scope => (some (c.holds scope), c.invalidate scope)
  | .clear => (none, c.clear)
  | .mark scope on => (none, c.mark scope on)

/-- The cache after the changes, empty before them. -/
def after (changes : List ViewChange) : RenderedViews :=
  changes.foldl (fun c change => (c.step change).2) empty

theorem after_concat (changes : List ViewChange) (change : ViewChange) :
    after (changes ++ [change]) = ((after changes).step change).2 := List.foldl_append

/-! ### One change -/

theorem get?_step (c : RenderedViews) (hscope : scope ≠ .tab) (change : ViewChange) :
    (c.step change).2.get? scope kind = some html ↔
      change = .set scope html kind ∨
        (c.get? scope kind = some html ∧ ¬ change.Displaces scope kind) := by
  cases change with
  | set other text k =>
    show (c.set other text k).get? scope kind = some html ↔ _
    rw [get?_set]
    by_cases hkey : other = scope ∧ k = kind
    · obtain ⟨rfl, rfl⟩ := hkey
      have hshared : other.isShared = true := by cases other <;> simp_all [Scope.isShared]
      simp [hshared, ViewChange.Displaces]
    · have hset : ViewChange.set other text k ≠ .set scope html kind := by
        intro heq
        cases heq
        exact hkey ⟨rfl, rfl⟩
      rw [if_neg fun h => hkey h.2]
      simp [hset, ViewChange.Displaces, hkey]
  | invalidate other =>
    show (c.invalidate other).get? scope kind = some html ↔ _
    rw [get?_invalidate]
    by_cases hother : other = scope <;> simp [hother, ViewChange.Displaces]
  | clear => simp [step, get?_clear, ViewChange.Displaces]
  | mark other on => simp [step, get?_mark, ViewChange.Displaces]

/-- The tab scope is never stored for. -/
theorem get?_tab_step (c : RenderedViews) (h : c.get? .tab kind = none) (change : ViewChange) :
    (c.step change).2.get? .tab kind = none := by
  cases change with
  | set other text k =>
    show (c.set other text k).get? .tab kind = none
    rw [get?_set, if_neg, h]
    intro hset
    obtain ⟨hshared, rfl, -⟩ := hset
    cases hshared
  | invalidate other =>
    show (c.invalidate other).get? .tab kind = none
    rw [get?_invalidate, h, ite_self]
  | clear => exact c.get?_clear .tab kind
  | mark other on => exact h

theorem marks_step_of_not_isMark (c : RenderedViews) {change : ViewChange}
    (h : change.isMark = false) : (c.step change).2.marks = c.marks := by
  cases change with
  | set other text k =>
    show (c.set other text k).marks = c.marks
    unfold set
    split <;> rfl
  | mark other on => cases h
  | _ => rfl

/-- The views that are stored have no part in the marks. -/
theorem marks_step_congr {d : RenderedViews} (h : c.marks = d.marks) (change : ViewChange) :
    (c.step change).2.marks = (d.step change).2.marks := by
  cases change with
  | mark other on => simp only [step, RenderedViews.mark, h]
  | _ => rw [marks_step_of_not_isMark c rfl, marks_step_of_not_isMark d rfl, h]

theorem isMarked_step (c : RenderedViews) (scope : Scope) (change : ViewChange) :
    (c.step change).2.isMarked scope = true ↔ change = .mark scope true ∨
      (c.isMarked scope = true ∧ change ≠ .mark scope false) := by
  cases change with
  | mark other on =>
    show (c.mark other on).isMarked scope = true ↔ _
    rw [isMarked_mark]
    by_cases hother : other = scope <;> cases on <;> simp [hother]
  | _ =>
    rw [isMarked, marks_step_of_not_isMark c rfl]
    simp [isMarked]

/-! ### All changes -/

theorem get?_tab_after (changes : List ViewChange) (kind : RenderKind) :
    (after changes).get? .tab kind = none := by
  induction changes using List.reverseRecOn with
  | nil => simp [after, empty, get?]
  | append_singleton changes change ih =>
    rw [after_concat]
    exact (after changes).get?_tab_step ih change

theorem get?_after_iff (changes : List ViewChange) (hscope : scope ≠ .tab) :
    (after changes).get? scope kind = some html ↔
      Since (fun _ change => change = .set scope html kind)
        (fun _ change => change.Displaces scope kind) changes := by
  refine since_iff (P := fun changes => (after changes).get? scope kind = some html)
    (by simp [after, empty, get?]) (fun past change => ?_) changes
  rw [after_concat]
  exact (after past).get?_step hscope change

theorem isMarked_after_iff (changes : List ViewChange) (scope : Scope) :
    (after changes).isMarked scope = true ↔
      Since (fun _ change => change = .mark scope true)
        (fun _ change => change = .mark scope false) changes := by
  refine since_iff (P := fun changes => (after changes).isMarked scope = true)
    (by simp [after, empty, isMarked]) (fun past change => ?_) changes
  rw [after_concat]
  exact (after past).isMarked_step scope change

/-- The marks are those that come of the changes to marks alone. -/
theorem marks_after (changes : List ViewChange) :
    (after changes).marks = (after (changes.filter ViewChange.isMark)).marks := by
  induction changes using List.reverseRecOn with
  | nil => rfl
  | append_singleton changes change ih =>
    rw [after_concat, List.filter_append]
    cases h : change.isMark with
    | true =>
      rw [List.filter_cons_of_pos h, List.filter_nil, after_concat]
      exact marks_step_congr ih change
    | false =>
      rw [List.filter_cons_of_neg (by simp [h]), List.filter_nil, List.append_nil, ← ih]
      exact marks_step_of_not_isMark _ h

/-- **The cache follows its history.** After any changes a scope has the view of a kind that
was stored for it last, unless it was dropped since; the tab scope has none. Dropping a scope
answers whether it had a view of either kind and leaves every other scope as it was. Marks
come of the changes to marks alone, each standing from when it is set until it is taken off.
The figures count and list what the cache answers. -/
theorem follows_history (changes : List ViewChange) :
    let c := after changes
    (∀ scope kind html, c.get? scope kind = some html ↔ scope ≠ .tab ∧
      Since (fun _ change => change = .set scope html kind)
        (fun _ change => change.Displaces scope kind) changes) ∧
    (∀ scope,
      ((c.step (.invalidate scope)).1 = some true ↔
        ∃ kind, (c.get? scope kind).isSome = true) ∧
      ∀ other kind, other ≠ scope →
        (c.step (.invalidate scope)).2.get? other kind = c.get? other kind) ∧
    (∀ scope, c.isMarked scope = true ↔
      Since (fun _ change => change = .mark scope true)
        (fun _ change => change = .mark scope false) changes) ∧
    c.marks = (after (changes.filter ViewChange.isMark)).marks ∧
    c.occupancy.Reports c := by
  intro c
  refine ⟨fun scope kind html => ?_, fun scope => ⟨?_, fun other kind hother => ?_⟩,
    isMarked_after_iff changes, marks_after changes, c.reports_occupancy⟩
  · by_cases hscope : scope = .tab
    · subst hscope
      simp [c, get?_tab_after]
    · rw [and_iff_right hscope]
      exact get?_after_iff changes hscope
  · rw [← holds_iff, step, Option.some.injEq]
  · show (c.invalidate scope).get? other kind = _
    rw [get?_invalidate, if_neg hother.symm]

/-- Two kinds of view in one scope, of which one is replaced, and one in another; a mark
outlives what is dropped. -/
def eventful : List ViewChange :=
  [.set .global "a" .update, .set .global "b" .initial, .mark .global true,
    .set (.route "/") "c" .update, .set .tab "d" .update, .set .global "e" .update]

/-- What replaced the first view is there, the tab scope has none, and dropping the one scope
leaves the other. -/
theorem follows_history_eventful :
    Since (fun _ change => change = .set .global "e" .update)
      (fun _ change => change.Displaces .global .update) eventful ∧
    (after eventful).get? .tab .update = none ∧
    ((after eventful).step (.invalidate .global)).1 = some true ∧
    ((after eventful).step (.invalidate .global)).2.get? (.route "/") .update = some "c" ∧
    (after (eventful.filter ViewChange.isMark)).isMarked .global = true ∧
    (after eventful).occupancy.scopes = [.route "/", .global] := by
  obtain ⟨hget, hdrop, _, hmarks, _⟩ := follows_history eventful
  have hview : (after eventful).get? .global .update = some "e" := by decide +kernel
  have hother : (after eventful).get? (.route "/") .update = some "c" := by decide +kernel
  refine ⟨((hget _ _ _).mp hview).2, ?_, (hdrop .global).1.mpr ⟨.update, by rw [hview]; rfl⟩, ?_, ?_,
    by decide +kernel⟩
  · refine Option.eq_none_iff_forall_ne_some.mpr fun html htab => ?_
    exact ((hget _ _ _).mp htab).1 rfl
  · exact ((hdrop .global).2 _ _ (by decide)).trans hother
  · rw [isMarked, ← hmarks]
    decide +kernel

end RenderedViews
end SharedViews

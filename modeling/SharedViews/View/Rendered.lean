import SharedViews.Scope
import Std.Data.ExtTreeMap
import Std.Data.ExtTreeSet

/-! The cache of rendered views.

A view is stored under its scope and the kind of render it came from. The tab
scope never holds one: what is stored for it is dropped. Invalidating a scope
drops both its kinds. Apart from the views the cache carries a mark for each
scope that a render is under way for; the marks follow `mark` alone and
outlive a `clear`. -/
namespace SharedViews
open Std

structure RenderedViews where
  views : ExtTreeMap ViewKey String
  marks : ExtTreeSet Scope
  deriving Inhabited

/-- How full the cache is. -/
structure Occupancy where
  views : Nat
  initialViews : Nat
  updateViews : Nat
  scopes : List Scope
  marked : List Scope
  deriving DecidableEq, Inhabited, Repr

namespace RenderedViews

def empty : RenderedViews := ⟨∅, ∅⟩

def get? (c : RenderedViews) (scope : Scope) (kind : RenderKind) : Option String :=
  c.views[ViewKey.mk scope kind]?

def set (c : RenderedViews) (scope : Scope) (html : String) (kind : RenderKind) : RenderedViews :=
  if scope.isShared then {c with views := c.views.insert ⟨scope, kind⟩ html} else c

/-- Whether a scope holds a view of either kind. -/
def holds (c : RenderedViews) (scope : Scope) : Bool :=
  c.views.contains ⟨scope, .initial⟩ || c.views.contains ⟨scope, .update⟩

/-- Drops what a scope holds. -/
def invalidate (c : RenderedViews) (scope : Scope) : RenderedViews :=
  {c with views := (c.views.erase ⟨scope, .initial⟩).erase ⟨scope, .update⟩}

/-- Drops every view. The marks stay: the renders they stand for go on. -/
def clear (c : RenderedViews) : RenderedViews := {c with views := ∅}

def isMarked (c : RenderedViews) (scope : Scope) : Bool := c.marks.contains scope

def mark (c : RenderedViews) (scope : Scope) (on : Bool) : RenderedViews :=
  {c with marks := if on then c.marks.insert scope else c.marks.erase scope}

def size (c : RenderedViews) : Nat := c.views.size

def isEmpty (c : RenderedViews) : Bool := c.views.isEmpty

/-- The scopes that hold a view, in order, each once. -/
def scopes (c : RenderedViews) : List Scope :=
  (ExtTreeSet.ofList (c.views.keys.map (·.scope))).toList

def occupancy (c : RenderedViews) : Occupancy :=
  let updates := c.views.keys.countP (·.kind == .update)
  { views := c.size
    initialViews := c.size - updates
    updateViews := updates
    scopes := c.scopes
    marked := c.marks.toList }

/-! ### What operations do to views and marks -/

theorem get?_set (c : RenderedViews) (scope other : Scope) (html : String) (kind k : RenderKind) :
    (c.set scope html kind).get? other k =
      if scope.isShared ∧ scope = other ∧ kind = k then some html else c.get? other k := by
  by_cases h : scope.isShared <;> simp [set, get?, h, ExtTreeMap.getElem?_insert]

theorem get?_invalidate (c : RenderedViews) (scope other : Scope) (k : RenderKind) :
    (c.invalidate scope).get? other k = if scope = other then none else c.get? other k := by
  by_cases h : scope = other <;> cases k <;> simp [invalidate, get?, h, ExtTreeMap.getElem?_erase]

theorem get?_clear (c : RenderedViews) (scope : Scope) (k : RenderKind) :
    c.clear.get? scope k = none := by
  simp [clear, get?]

theorem get?_mark (c : RenderedViews) (scope other : Scope) (on : Bool) (k : RenderKind) :
    (c.mark scope on).get? other k = c.get? other k := rfl

theorem isMarked_mark (c : RenderedViews) (scope other : Scope) (on : Bool) :
    (c.mark scope on).isMarked other =
      if scope = other then on else c.isMarked other := by
  by_cases h : scope = other <;> cases on <;>
    simp [mark, isMarked, h, ExtTreeSet.contains_insert, ExtTreeSet.contains_erase]

/-- A scope holds a view when there is one of some kind. -/
theorem holds_iff (c : RenderedViews) (scope : Scope) :
    c.holds scope ↔ ∃ k, (c.get? scope k).isSome := by
  constructor
  · intro h
    simp only [holds, Bool.or_eq_true] at h
    rcases h with h | h
    · exact ⟨.initial, by simpa [get?] using h⟩
    · exact ⟨.update, by simpa [get?] using h⟩
  · rintro ⟨k, h⟩
    cases k <;> simp_all [holds, get?]

end RenderedViews
end SharedViews

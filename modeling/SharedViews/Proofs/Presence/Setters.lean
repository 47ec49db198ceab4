import SharedViews.Context

/-! What a context's own setters can change.

A setter is an edit or the registration of a teardown hook. Whatever a closure does
to a context is a list of setters, and none of them touches its id or its session.
The scopes of a context are the global one, one route, one session and the custom
ones it joined; the tab scope is never among them. -/
namespace SharedViews
open Std

namespace Context
variable {Hook : Type}

theorem mem_scopes (c : Context Hook) (scope : Scope) :
    scope ∈ c.scopes ↔ scope = .global ∨ scope = .route c.route ∨ scope = .session c.session ∨
      ∃ name ∈ c.joined, scope = .custom name := by
  have hgiven : scope ∈ c.givenScopes ↔
      scope = .global ∨ scope = .route c.route ∨ scope = .session c.session := by
    simp [givenScopes, ExtTreeSet.mem_ofList]
  have hjoined : scope ∈ c.joined.toList.map Scope.custom ↔
      ∃ name ∈ c.joined, scope = .custom name := by
    simp [eq_comm]
  unfold scopes
  rw [ExtTreeSet.mem_insertMany_list, hgiven, List.contains_iff_mem, hjoined, or_assoc, or_assoc]

theorem isShared_of_mem_scopes {c : Context Hook} {scope : Scope} (h : scope ∈ c.scopes) :
    scope.isShared = true := by
  rcases (c.mem_scopes scope).mp h with rfl | rfl | rfl | ⟨name, _, rfl⟩ <;> rfl

end Context

theorem Edit.hooks_apply {Hook : Type} (e : Edit) (c : Context Hook) :
    (e.apply c).2.hooks = c.hooks := by
  cases e with
  | joinCustom scope => cases scope <;> rfl
  | leaveCustom scope => cases scope <;> rfl
  | _ => rfl

theorem Edit.hooks_applyAll {Hook : Type} (edits : List Edit) (c : Context Hook) :
    (applyAll edits c).2.hooks = c.hooks := by
  induction edits generalizing c with
  | nil => rfl
  | cons e rest ih => exact (ih (e.apply c).2).trans (e.hooks_apply c)

/-- A change that a context offers. -/
inductive Setter (Hook : Type)
  | edit (e : Edit)
  | onTeardown (hook : Hook)

namespace Setter
variable {Hook : Type}

def apply (s : Setter Hook) (c : Context Hook) : Context Hook :=
  match s with
  | .edit e => (e.apply c).2
  | .onTeardown hook => c.onTeardown hook

/-- Setters from first to last. -/
def applyAll : List (Setter Hook) → Context Hook → Context Hook
  | [], c => c
  | s :: rest, c => applyAll rest (s.apply c)

theorem session_apply (s : Setter Hook) (c : Context Hook) : (s.apply c).session = c.session := by
  cases s with
  | onTeardown hook => rfl
  | edit e =>
    cases e with
    | joinCustom scope => cases scope <;> rfl
    | leaveCustom scope => cases scope <;> rfl
    | _ => rfl

theorem session_applyAll (setters : List (Setter Hook)) (c : Context Hook) :
    (applyAll setters c).session = c.session := by
  induction setters generalizing c with
  | nil => rfl
  | cons s rest ih => exact (ih (s.apply c)).trans (s.session_apply c)

/-- The hook that the setter registers. -/
def hook? : Setter Hook → Option Hook
  | .edit _ => none
  | .onTeardown hook => some hook

/-- Hooks stand in the order in which they were registered. -/
theorem hooks_applyAll (setters : List (Setter Hook)) (c : Context Hook) :
    (applyAll setters c).hooks = c.hooks ++ setters.filterMap hook? := by
  induction setters generalizing c with
  | nil => exact (List.append_nil _).symm
  | cons s rest ih =>
    rw [applyAll, ih]
    cases s with
    | edit e => exact congrArg (· ++ rest.filterMap hook?) (e.hooks_apply c)
    | onTeardown hook => exact List.append_assoc c.hooks [hook] (rest.filterMap hook?)

/-- A list of edits is a list of setters. -/
theorem applyAll_edits (edits : List Edit) (c : Context Hook) :
    (Edit.applyAll edits c).2 = applyAll (edits.map .edit) c := by
  induction edits generalizing c with
  | nil => rfl
  | cons e rest ih => exact ih (e.apply c).2

end Setter
end SharedViews

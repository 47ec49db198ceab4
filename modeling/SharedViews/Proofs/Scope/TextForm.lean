import SharedViews.Scope
import Mathlib.Logic.Function.Basic

/-! Scopes and their texts.

The text of a scope is never lost: what a text is read as writes the same text again
(`display_parse`). The other way round a scope may be lost, for a custom scope may have any
name, the texts of the other kinds among them; no other scope is ever read as something
else (`parse_display_iff`). -/
namespace SharedViews.Scope
variable {text : String} {start rest : List Char}

/-! ### Readings -/

theorem after?_eq_some_iff : after? start text.toList = some rest ↔
    text = String.ofList start ++ String.ofList rest := by
  rw [after?, ← String.toList_inj, String.toList_append, String.toList_ofList,
    String.toList_ofList]
  split
  next h =>
    obtain ⟨tail, htail⟩ := List.isPrefixOf_iff_prefix.mp h
    rw [← htail]
    simp
  next h =>
    refine iff_of_false nofun fun htext => h ?_
    rw [htext]
    exact List.isPrefixOf_iff_prefix.mpr (List.prefix_append start rest)

/-- A text that is written by a kind of scope other than the custom ones. -/
def Reserved (text : String) : Prop :=
  text = "TAB" ∨ text = "GLOBAL" ∨ (∃ path, text = "ROUTE:" ++ path) ∨
    ∃ id, text = "SESSION:" ++ id

theorem parse_route (path : String) : parse ("ROUTE:" ++ path) = route path := by
  have htab : "ROUTE:" ++ path ≠ "TAB" := fun h => by simpa using congrArg String.toList h
  have hglobal : "ROUTE:" ++ path ≠ "GLOBAL" := fun h => by simpa using congrArg String.toList h
  have hafter : after? "ROUTE:".toList ("ROUTE:" ++ path).toList = some path.toList :=
    after?_eq_some_iff.mpr (by simp)
  rw [parse, if_neg htab, if_neg hglobal, hafter]
  simp

theorem parse_session (id : String) : parse ("SESSION:" ++ id) = session id := by
  have htab : "SESSION:" ++ id ≠ "TAB" := fun h => by simpa using congrArg String.toList h
  have hglobal : "SESSION:" ++ id ≠ "GLOBAL" := fun h => by simpa using congrArg String.toList h
  have hroute : after? "ROUTE:".toList ("SESSION:" ++ id).toList = none := by
    refine Option.eq_none_iff_forall_ne_some.mpr fun rest h => ?_
    simpa using congrArg String.toList (after?_eq_some_iff.mp h)
  have hafter : after? "SESSION:".toList ("SESSION:" ++ id).toList = some id.toList :=
    after?_eq_some_iff.mpr (by simp)
  rw [parse, if_neg htab, if_neg hglobal, hroute, hafter]
  simp

theorem parse_custom (h : ¬ Reserved text) : parse text = custom text := by
  have hroute : after? "ROUTE:".toList text.toList = none := by
    refine Option.eq_none_iff_forall_ne_some.mpr fun rest hrest => h ?_
    exact .inr (.inr (.inl ⟨String.ofList rest, after?_eq_some_iff.mp hrest⟩))
  have hsession : after? "SESSION:".toList text.toList = none := by
    refine Option.eq_none_iff_forall_ne_some.mpr fun rest hrest => h ?_
    exact .inr (.inr (.inr ⟨String.ofList rest, after?_eq_some_iff.mp hrest⟩))
  rw [parse, if_neg fun heq => h (.inl heq), if_neg fun heq => h (.inr (.inl heq)), hroute,
    hsession]

/-- A reserved text is never read as a custom scope. -/
theorem parse_ne_custom (h : Reserved text) (name : String) : parse text ≠ custom name := by
  rcases h with rfl | rfl | ⟨path, rfl⟩ | ⟨id, rfl⟩
  · nofun
  · nofun
  · rw [parse_route]
    nofun
  · rw [parse_session]
    nofun

/-! ### There and back -/

theorem display_parse (text : String) : (parse text).display = text := by
  by_cases h : Reserved text
  · rcases h with rfl | rfl | ⟨path, rfl⟩ | ⟨id, rfl⟩
    · rfl
    · rfl
    · rw [parse_route, display]
    · rw [parse_session, display]
  · rw [parse_custom h, display]

theorem parse_injective : Function.Injective parse :=
  Function.LeftInverse.injective display_parse

/-- A custom scope whose name is the text of another kind. -/
def Ambiguous (scope : Scope) : Prop := ∃ name, scope = custom name ∧ Reserved name

theorem parse_display_iff (scope : Scope) : parse scope.display = scope ↔ ¬ scope.Ambiguous := by
  have hplain : (∀ name, scope ≠ custom name) → ¬ scope.Ambiguous := fun hne ⟨name, heq, _⟩ =>
    hne name heq
  cases scope with
  | tab => exact iff_of_true rfl (hplain nofun)
  | global => exact iff_of_true rfl (hplain nofun)
  | route path => exact iff_of_true (parse_route path) (hplain nofun)
  | session id => exact iff_of_true (parse_session id) (hplain nofun)
  | custom name =>
    constructor
    · intro hparse h
      obtain ⟨_, ⟨rfl⟩, hreserved⟩ := h
      exact parse_ne_custom hreserved name hparse
    · intro h
      exact parse_custom fun hreserved => h ⟨name, rfl, hreserved⟩

end SharedViews.Scope

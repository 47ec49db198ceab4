import SharedViews.View.Rendered
import Mathlib.Data.Finset.Card

/-! How full the cache is, by what it answers.

The figures are read off the table of views and the set of marks. Whoever only asks the cache
gets the same: they count the keys that have a view, by kind and together, and list the scopes
with a view and those with a mark, in order and each once (`reports_occupancy`). -/
namespace SharedViews
open Std

/-- The figures count and list what the cache answers. -/
structure Occupancy.Reports (o : Occupancy) (c : RenderedViews) : Prop where
  counts : ∃ keys : Finset ViewKey,
    (∀ key, key ∈ keys ↔ (c.get? key.scope key.kind).isSome = true) ∧
    o.views = keys.card ∧
    o.initialViews = (keys.filter (·.kind = .initial)).card ∧
    o.updateViews = (keys.filter (·.kind = .update)).card
  total : o.views = o.initialViews + o.updateViews
  scopes_ordered : o.scopes.Pairwise fun a b => compare a b = .lt
  mem_scopes : ∀ scope, scope ∈ o.scopes ↔ ∃ kind, (c.get? scope kind).isSome = true
  marked_ordered : o.marked.Pairwise fun a b => compare a b = .lt
  mem_marked : ∀ scope, scope ∈ o.marked ↔ c.isMarked scope = true

namespace RenderedViews
variable {c : RenderedViews} {scope : Scope} {key : ViewKey}

/-! ### Keys -/

theorem mem_keys : key ∈ c.views.keys ↔ (c.get? key.scope key.kind).isSome = true :=
  ExtTreeMap.mem_keys.trans ExtTreeMap.isSome_getElem?_iff_mem.symm

theorem nodup_keys (c : RenderedViews) : c.views.keys.Nodup := by
  refine ExtTreeMap.distinct_keys.imp fun hne heq => hne ?_
  rw [heq]
  exact compare_self

theorem card_keys (c : RenderedViews) : c.views.keys.toFinset.card = c.size := by
  rw [List.toFinset_card_of_nodup c.nodup_keys, ExtTreeMap.length_keys]
  rfl

theorem card_keys_update (c : RenderedViews) :
    (c.views.keys.toFinset.filter (·.kind = .update)).card = c.occupancy.updateViews := by
  have hfilter : c.views.keys.toFinset.filter (·.kind = .update) =
      (c.views.keys.filter (·.kind == .update)).toFinset := by
    rw [List.toFinset_filter]
    exact Finset.filter_congr fun key _ => beq_iff_eq.symm
  rw [hfilter, List.toFinset_card_of_nodup (c.nodup_keys.filter _), ← List.countP_eq_length_filter]
  rfl

/-- A key that is no update's is an initial one. -/
theorem card_keys_initial_add (c : RenderedViews) :
    (c.views.keys.toFinset.filter (·.kind = .initial)).card + c.occupancy.updateViews = c.size := by
  have hother : ∀ key : ViewKey, ¬ key.kind = .initial ↔ key.kind = .update := by
    intro key
    cases key.kind <;> simp
  have hparts := Finset.card_filter_add_card_filter_not (s := c.views.keys.toFinset)
    fun key => key.kind = .initial
  simp only [hother] at hparts
  rw [← card_keys_update, hparts, card_keys]

/-! ### Scopes -/

theorem ordered_scopes (c : RenderedViews) : c.scopes.Pairwise fun a b => compare a b = .lt :=
  ExtTreeSet.ordered_toList

/-- The scopes that are listed are those that hold a view. -/
theorem mem_scopes : scope ∈ c.scopes ↔ c.holds scope = true := by
  rw [holds_iff, scopes, ExtTreeSet.mem_toList, ExtTreeSet.mem_ofList, List.contains_iff_mem,
    List.mem_map]
  constructor
  · intro h
    obtain ⟨key, hkey, rfl⟩ := h
    exact ⟨key.kind, mem_keys.mp hkey⟩
  · intro h
    obtain ⟨kind, hkind⟩ := h
    exact ⟨⟨scope, kind⟩, mem_keys.mpr hkind, rfl⟩

theorem reports_occupancy (c : RenderedViews) : c.occupancy.Reports c where
  counts := by
    refine ⟨c.views.keys.toFinset, fun key => List.mem_toFinset.trans mem_keys,
      c.card_keys.symm, ?_, c.card_keys_update.symm⟩
    exact (Nat.eq_sub_of_add_eq c.card_keys_initial_add).symm
  total := by
    have hsum := c.card_keys_initial_add
    show c.size = c.size - c.occupancy.updateViews + c.occupancy.updateViews
    omega
  scopes_ordered := c.ordered_scopes
  mem_scopes scope := mem_scopes.trans (c.holds_iff scope)
  marked_ordered := ExtTreeSet.ordered_toList (t := c.marks)
  mem_marked scope := ExtTreeSet.mem_toList.trans ExtTreeSet.contains_iff_mem.symm

end RenderedViews
end SharedViews

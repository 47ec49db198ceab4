import Std.Data.ExtTreeMap
import Std.Data.ExtTreeSet

/-! A finite relation kept as groups.

Each left element that is related to anything has the set of its right elements,
and no set is empty: removing a group's last pair removes the group. So the left
elements that occur are the keys, and two relations with the same pairs are equal
tables. -/
namespace SharedViews
open Std

/-- The right elements related to each left one. -/
abbrev Groups (α β : Type) [Ord α] [Ord β] := ExtTreeMap α (ExtTreeSet β)

namespace Groups
variable {α β : Type} [Ord α] [Ord β] [TransOrd α] [TransOrd β]

/-- The right elements of `a`, none if it has no group. -/
def of (groups : Groups α β) (a : α) : ExtTreeSet β := groups.getD a ∅

/-- Relates a pair. -/
def add (groups : Groups α β) (a : α) (b : β) : Groups α β :=
  groups.insert a ((of groups a).insert b)

/-- Unrelates a pair, and the group with it when the pair was its last. -/
def remove (groups : Groups α β) (a : α) (b : β) : Groups α β :=
  let rest := (of groups a).erase b
  if rest.isEmpty then groups.erase a else groups.insert a rest

theorem of_add (groups : Groups α β) (a x : α) (b : β) :
    of (groups.add a b) x = if compare a x = .eq then (of groups a).insert b else of groups x :=
  ExtTreeMap.getD_insert

theorem of_remove (groups : Groups α β) (a x : α) (b : β) :
    of (groups.remove a b) x = if compare a x = .eq then (of groups a).erase b else of groups x := by
  unfold remove
  by_cases h : ((of groups a).erase b).isEmpty
  · rw [if_pos h, ExtTreeSet.isEmpty_iff.1 h]
    exact ExtTreeMap.getD_erase
  · rw [if_neg h]
    exact ExtTreeMap.getD_insert

variable [LawfulEqOrd α] [LawfulEqOrd β]

/-- Adding a pair relates it and nothing else. -/
theorem mem_of_add (groups : Groups α β) (a x : α) (b y : β) :
    y ∈ of (groups.add a b) x ↔ (a = x ∧ b = y) ∨ y ∈ of groups x := by
  rw [of_add]
  by_cases h : a = x
  · subst h; simp [ExtTreeSet.mem_insert]
  · simp [h]

/-- Removing a pair unrelates it and nothing else. -/
theorem mem_of_remove (groups : Groups α β) (a x : α) (b y : β) :
    y ∈ of (groups.remove a b) x ↔ ¬(a = x ∧ b = y) ∧ y ∈ of groups x := by
  rw [of_remove]
  by_cases h : a = x
  · subst h; simp [ExtTreeSet.mem_erase]
  · simp [h]

end Groups
end SharedViews

import SharedViews.Scope.Membership

/-! Membership as a relation.

Kept from both sides, membership is still one relation, `Belongs`, as long as the
two tables are inverse to each other and hold no empty group (`Sound`). Joining
adds a pair, leaving and `removeAll` take pairs away, and what they answer is read
off the relation before and after: a scope is reported as emptied exactly when it
had a member and has none any more. -/
namespace SharedViews
open Std

namespace Groups
variable {α β : Type} [Ord α] [Ord β] [TransOrd α]

/-- No group is empty. -/
def Proper (groups : Groups α β) : Prop := ∀ a, a ∈ groups → groups.of a ≠ ∅

theorem of_of_not_mem {groups : Groups α β} {a : α} (h : a ∉ groups) : of groups a = ∅ :=
  ExtTreeMap.getD_eq_fallback h

theorem proper_empty : Proper (∅ : Groups α β) := by
  intro a h
  simp at h

theorem of_erase (groups : Groups α β) (a x : α) :
    of (groups.erase a) x = if compare a x = .eq then ∅ else of groups x :=
  ExtTreeMap.getD_erase

theorem proper_erase {groups : Groups α β} (hp : Proper groups) (a : α) :
    Proper (groups.erase a) := by
  intro x hx
  obtain ⟨hne, hx⟩ := ExtTreeMap.mem_erase.mp hx
  rw [of_erase, if_neg hne]
  exact hp x hx

variable [TransOrd β]

theorem mem_of_nonempty {groups : Groups α β} {a : α} {b : β} (h : b ∈ of groups a) :
    a ∈ groups := by
  by_cases ha : a ∈ groups
  · exact ha
  · rw [of_of_not_mem ha] at h
    simp at h

/-- The left elements that occur are those with a right element. -/
theorem Proper.mem_iff {groups : Groups α β} (hp : Proper groups) (a : α) :
    a ∈ groups ↔ ∃ b, b ∈ of groups a := by
  constructor
  · intro h
    have hne := hp a h
    rw [Ne, ExtTreeSet.eq_empty_iff_forall_not_mem] at hne
    simpa using hne
  · intro h
    obtain ⟨b, hb⟩ := h
    exact mem_of_nonempty hb

theorem proper_add {groups : Groups α β} (hp : Proper groups) (a : α) (b : β) :
    Proper (groups.add a b) := by
  intro x hx
  rw [of_add]
  by_cases h : compare a x = .eq
  · rw [if_pos h]
    exact ExtTreeSet.insert_ne_empty
  · rw [if_neg h]
    refine hp x ?_
    simpa [add, ExtTreeMap.mem_insert, h] using hx

theorem proper_remove {groups : Groups α β} (hp : Proper groups) (a : α) (b : β) :
    Proper (groups.remove a b) := by
  intro x hx
  rw [of_remove]
  unfold remove at hx
  by_cases hempty : ((of groups a).erase b).isEmpty
  · rw [if_pos hempty] at hx
    obtain ⟨hne, hx⟩ := ExtTreeMap.mem_erase.mp hx
    rw [if_neg hne]
    exact hp x hx
  · rw [if_neg hempty] at hx
    by_cases h : compare a x = .eq
    · rw [if_pos h]
      exact fun hnone => hempty (ExtTreeSet.isEmpty_iff.mpr hnone)
    · rw [if_neg h]
      refine hp x ?_
      simpa [ExtTreeMap.mem_insert, h] using hx

theorem proper_removes {groups : Groups α β} (hp : Proper groups) (own : List α) (b : β) :
    Proper (own.foldl (fun groups a => groups.remove a b) groups) := by
  induction own generalizing groups with
  | nil => exact hp
  | cons a rest ih => exact ih (proper_remove hp a b)

variable [LawfulEqOrd α] [LawfulEqOrd β]

/-- Removing one right element from a list of groups. -/
theorem mem_of_removes (groups : Groups α β) (own : List α) (b : β) (x : α) (y : β) :
    y ∈ of (own.foldl (fun groups a => groups.remove a b) groups) x ↔
      ¬ (x ∈ own ∧ b = y) ∧ y ∈ of groups x := by
  induction own generalizing groups with
  | nil => simp
  | cons a rest ih =>
    rw [List.foldl_cons, ih, mem_of_remove]
    grind

end Groups

namespace Membership

/-- The context is a member of the scope. -/
def Belongs (m : Membership) (id : ContextId) (scope : Scope) : Prop := id ∈ m.members.of scope

/-- The scope has a member. -/
def Occupied (m : Membership) (scope : Scope) : Prop := ∃ id, m.Belongs id scope

/-- The two tables say the same, hold no empty group, and nothing of the tab scope. -/
structure Sound (m : Membership) : Prop where
  inverse : ∀ id scope, scope ∈ m.byContext.of id ↔ m.Belongs id scope
  members : m.members.Proper
  byContext : m.byContext.Proper
  shared : ∀ id scope, m.Belongs id scope → scope.isShared = true

theorem sound_empty : Sound empty where
  inverse id scope := by simp [empty, Belongs, Groups.of]
  members := Groups.proper_empty
  byContext := Groups.proper_empty
  shared id scope h := by simp [empty, Belongs, Groups.of] at h

theorem Sound.occupied_iff {m : Membership} (h : m.Sound) (scope : Scope) :
    scope ∈ m.members ↔ m.Occupied scope := h.members.mem_iff scope

/-! ### Joining and leaving -/

theorem belongs_join (m : Membership) (scope other : Scope) (id x : ContextId) :
    (m.join scope id).2.Belongs x other ↔
      (scope.isShared = true ∧ scope = other ∧ id = x) ∨ m.Belongs x other := by
  unfold join
  by_cases h : scope.isShared = true
  · rw [if_pos h]
    show x ∈ (m.members.add scope id).of other ↔ _
    rw [Groups.mem_of_add]
    simp [h, Belongs]
  · rw [if_neg h]
    simp [h]

theorem Sound.join {m : Membership} (hm : m.Sound) (scope : Scope) (id : ContextId) :
    (m.join scope id).2.Sound := by
  unfold Membership.join
  by_cases h : scope.isShared = true
  · rw [if_pos h]
    refine ⟨?_, Groups.proper_add hm.members scope id, Groups.proper_add hm.byContext id scope, ?_⟩
    · intro x other
      show other ∈ (m.byContext.add id scope).of x ↔ x ∈ (m.members.add scope id).of other
      rw [Groups.mem_of_add, Groups.mem_of_add, hm.inverse, and_comm]
      rfl
    · intro x other hx
      rcases (Groups.mem_of_add m.members scope other id x).mp hx with ⟨rfl, _⟩ | hx
      · exact h
      · exact hm.shared x other hx
  · rw [if_neg h]
    exact hm

theorem belongs_leave (m : Membership) (scope other : Scope) (id x : ContextId) :
    (m.leave scope id).2.Belongs x other ↔
      ¬ (scope = other ∧ id = x) ∧ m.Belongs x other :=
  Groups.mem_of_remove m.members scope other id x

theorem Sound.leave {m : Membership} (hm : m.Sound) (scope : Scope) (id : ContextId) :
    (m.leave scope id).2.Sound where
  inverse x other := by
    show other ∈ (m.byContext.remove id scope).of x ↔ x ∈ (m.members.remove scope id).of other
    rw [Groups.mem_of_remove, Groups.mem_of_remove, hm.inverse, and_comm (a := id = x)]
    rfl
  members := Groups.proper_remove hm.members scope id
  byContext := Groups.proper_remove hm.byContext id scope
  shared x other h := hm.shared x other ((belongs_leave m scope other id x).mp h).2

/-- A scope is reported as emptied when it loses its last member by the call. -/
theorem Sound.leave_emptied {m : Membership} (hm : m.Sound) (scope : Scope) (id : ContextId) :
    (m.leave scope id).1 = true ↔
      m.Belongs id scope ∧ ¬ (m.leave scope id).2.Occupied scope := by
  have hmem : scope ∈ (m.leave scope id).2.members ↔ (m.members.remove scope id).contains scope :=
    ExtTreeMap.mem_iff_contains
  rw [← (hm.leave scope id).occupied_iff, hmem, Bool.not_eq_true]
  show ((m.members.of scope).contains id && !(m.members.remove scope id).contains scope) = true ↔ _
  rw [Bool.and_eq_true, Bool.not_eq_true', ExtTreeSet.contains_iff_mem]
  rfl

/-! ### Removing a context from all its scopes -/

theorem Sound.mem_scopesOf {m : Membership} (hm : m.Sound) (id : ContextId) (scope : Scope) :
    scope ∈ m.scopesOf id ↔ m.Belongs id scope := by
  rw [← hm.inverse]
  exact ExtTreeSet.mem_toList

theorem Sound.belongs_removeAll {m : Membership} (hm : m.Sound) (id x : ContextId)
    (scope : Scope) : (m.removeAll id).2.Belongs x scope ↔ id ≠ x ∧ m.Belongs x scope := by
  show x ∈ Groups.of ((m.scopesOf id).foldl (fun members a => members.remove a id) m.members) scope ↔ _
  rw [Groups.mem_of_removes, hm.mem_scopesOf]
  constructor
  · intro h
    obtain ⟨hno, hx⟩ := h
    refine ⟨fun hsame => hno ⟨?_, hsame⟩, hx⟩
    rw [hsame]
    exact hx
  · intro h
    obtain ⟨hne, hx⟩ := h
    exact ⟨fun hboth => hne hboth.2, hx⟩

theorem Sound.removeAll {m : Membership} (hm : m.Sound) (id : ContextId) :
    (m.removeAll id).2.Sound where
  inverse x scope := by
    rw [hm.belongs_removeAll]
    show scope ∈ Groups.of (m.byContext.erase id) x ↔ _
    rw [Groups.of_erase, ← hm.inverse]
    by_cases h : id = x
    · subst h
      simp
    · simp [h]
  members := Groups.proper_removes hm.members _ id
  byContext := Groups.proper_erase hm.byContext id
  shared x scope h := hm.shared x scope ((hm.belongs_removeAll id x scope).mp h).2

/-- The scopes answered are those that had a member and have none any more. -/
theorem Sound.removeAll_emptied {m : Membership} (hm : m.Sound) (id : ContextId) (scope : Scope) :
    scope ∈ (m.removeAll id).1 ↔
      m.Belongs id scope ∧ ¬ (m.removeAll id).2.Occupied scope := by
  have hmem : scope ∈ (m.removeAll id).2.members ↔ (m.removeAll id).2.members.contains scope :=
    ExtTreeMap.mem_iff_contains
  rw [← (hm.removeAll id).occupied_iff, ← hm.mem_scopesOf, hmem, Bool.not_eq_true]
  show scope ∈ (m.scopesOf id).filter _ ↔ _
  rw [List.mem_filter, Bool.not_eq_true']
  rfl

end Membership
end SharedViews

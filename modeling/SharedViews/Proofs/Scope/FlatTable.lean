import SharedViews.Proofs.Text.ByteOrder
import SharedViews.Scope.Table
import Mathlib.Data.Finset.Card
import Mathlib.Logic.Function.Basic

/-! The table in one piece.

What is stored under scopes is one finite table from a scope and a name to a value; that the
values of a scope are kept together in a bucket shows nowhere. Change by change the buckets go
along with a table that has none (`keeps_step`), and no bucket is left empty. So after any
changes all that is answered and listed is what the flat table has (`follows_flat`). -/
namespace SharedViews
open Std

/-- What is done to a table. -/
inductive TableChange (V : Type)
  | insert (scope : Scope) (name : String) (value : V)
  | erase (scope : Scope) (name : String)
  | dropScope (scope : Scope)

/-- What it answers: the value that was there, or whether there was any. -/
inductive TableChange.Answer (V : Type)
  | value (old : Option V)
  | flag (any : Bool)
  deriving DecidableEq

/-- A finite table from a scope and a name to a value. -/
structure FlatTable (V : Type) where
  lookup : Scope × String → Option V
  keys : Finset (Scope × String)
  mem_keys : ∀ key, key ∈ keys ↔ (lookup key).isSome = true

namespace FlatTable
variable {V : Type}

def empty : FlatTable V where
  lookup _ := none
  keys := ∅
  mem_keys := by simp

def insert (F : FlatTable V) (key : Scope × String) (value : V) : FlatTable V where
  lookup := Function.update F.lookup key (some value)
  keys := Insert.insert key F.keys
  mem_keys other := by
    by_cases h : other = key <;> simp [h, F.mem_keys]

def erase (F : FlatTable V) (key : Scope × String) : FlatTable V where
  lookup := Function.update F.lookup key none
  keys := F.keys.erase key
  mem_keys other := by
    by_cases h : other = key <;> simp [h, F.mem_keys]

/-- Erases all keys of the scope. -/
def dropScope (F : FlatTable V) (scope : Scope) : FlatTable V where
  lookup key := if key.1 = scope then none else F.lookup key
  keys := F.keys.filter (·.1 ≠ scope)
  mem_keys key := by
    by_cases h : key.1 = scope <;> simp [h, F.mem_keys]

def next (F : FlatTable V) : TableChange V → FlatTable V
  | .insert scope name value => F.insert (scope, name) value
  | .erase scope name => F.erase (scope, name)
  | .dropScope scope => F.dropScope scope

/-- What the flat table has to say to a change. -/
def answer (F : FlatTable V) : TableChange V → TableChange.Answer V
  | .insert scope name _ | .erase scope name => .value (F.lookup (scope, name))
  | .dropScope scope => .flag (decide (∃ key ∈ F.keys, key.1 = scope))

/-- The flat table after the changes, from an empty one. -/
def after (changes : List (TableChange V)) : FlatTable V := changes.foldl next empty

end FlatTable

namespace ScopeTable
variable {V : Type} {s : ScopeTable V} {F : FlatTable V} {scope : Scope} {name : String} {value : V}

def step (s : ScopeTable V) : TableChange V → TableChange.Answer V × ScopeTable V
  | .insert scope name value => let (old, s) := s.replace scope name value; (.value old, s)
  | .erase scope name => let (old, s) := s.take scope name; (.value old, s)
  | .dropScope scope => let (any, s) := s.clear scope; (.flag any, s)

/-- The table after the changes, from an empty one. -/
def after (changes : List (TableChange V)) : ScopeTable V :=
  changes.foldl (fun s change => (s.step change).2) empty

/-- The buckets hold what the flat table does, and none of them is empty. -/
structure Keeps (s : ScopeTable V) (F : FlatTable V) : Prop where
  pruned : ∀ scope : Scope, s.buckets[scope]? ≠ some ∅
  lookup : ∀ scope name, s.get? scope name = F.lookup (scope, name)

/-! ### Buckets -/

theorem holds_iff : s.holds scope = true ↔ ∃ name, (s.get? scope name).isSome = true := by
  rw [holds, Bool.not_eq_true', ExtTreeMap.isEmpty_eq_false_iff]
  constructor
  · intro hne
    by_contra hnone
    refine hne (ExtTreeMap.ext_getElem? fun name => ?_)
    rw [ExtTreeMap.getElem?_empty]
    exact Option.not_isSome_iff_eq_none.mp fun hsome => hnone ⟨name, hsome⟩
  · intro hsome hempty
    obtain ⟨name, hname⟩ := hsome
    rw [get?, hempty, ExtTreeMap.getElem?_empty] at hname
    cases hname

theorem insert_pruned (h : ∀ scope : Scope, s.buckets[scope]? ≠ some ∅) (scope : Scope)
    (name : String) (value : V) (other : Scope) :
    (s.insert scope name value).buckets[other]? ≠ some ∅ := by
  rw [insert, ExtTreeMap.getElem?_insert]
  split
  · simp
  · exact h other

theorem erase_pruned (h : ∀ scope : Scope, s.buckets[scope]? ≠ some ∅) (scope : Scope)
    (name : String) (other : Scope) : (s.erase scope name).buckets[other]? ≠ some ∅ := by
  unfold erase
  dsimp only
  split
  next =>
    rw [ExtTreeMap.getElem?_erase]
    split
    · simp
    · exact h other
  next hrest =>
    rw [ExtTreeMap.getElem?_insert]
    split
    · simpa using hrest
    · exact h other

theorem dropScope_pruned (h : ∀ scope : Scope, s.buckets[scope]? ≠ some ∅) (scope other : Scope) :
    (s.dropScope scope).buckets[other]? ≠ some ∅ := by
  rw [dropScope, ExtTreeMap.getElem?_erase]
  split
  · simp
  · exact h other

/-! ### One change -/

theorem Keeps.insert (h : s.Keeps F) (scope : Scope) (name : String) (value : V) :
    (s.insert scope name value).Keeps (F.insert (scope, name) value) where
  pruned := insert_pruned h.pruned scope name value
  lookup other key := by
    rw [get?_insert, h.lookup]
    simp [FlatTable.insert, Function.update_apply, eq_comm]

theorem Keeps.erase (h : s.Keeps F) (scope : Scope) (name : String) :
    (s.erase scope name).Keeps (F.erase (scope, name)) where
  pruned := erase_pruned h.pruned scope name
  lookup other key := by
    rw [get?_erase, h.lookup]
    simp [FlatTable.erase, Function.update_apply, eq_comm]

theorem Keeps.dropScope (h : s.Keeps F) (scope : Scope) :
    (s.dropScope scope).Keeps (F.dropScope scope) where
  pruned := dropScope_pruned h.pruned scope
  lookup other key := by
    rw [get?_dropScope, h.lookup]
    exact if_congr eq_comm rfl rfl

/-- A scope holds something if some key is one of its. -/
theorem Keeps.holds_eq (h : s.Keeps F) (scope : Scope) :
    s.holds scope = decide (∃ key ∈ F.keys, key.1 = scope) := by
  rw [Bool.eq_iff_iff, holds_iff, decide_eq_true_iff]
  simp [F.mem_keys, h.lookup]

/-- A change is answered as the flat table has it, and made in both. -/
theorem keeps_step (h : s.Keeps F) (change : TableChange V) :
    (s.step change).1 = F.answer change ∧ (s.step change).2.Keeps (F.next change) := by
  cases change with
  | insert scope name value =>
    exact ⟨congrArg TableChange.Answer.value (h.lookup scope name), h.insert scope name value⟩
  | erase scope name =>
    exact ⟨congrArg TableChange.Answer.value (h.lookup scope name), h.erase scope name⟩
  | dropScope scope =>
    exact ⟨congrArg TableChange.Answer.flag (h.holds_eq scope), h.dropScope scope⟩

theorem keeps_empty : (empty : ScopeTable V).Keeps .empty where
  pruned scope := by simp [empty]
  lookup scope name := by simp [empty, get?, bucket, FlatTable.empty]

theorem keeps_after (changes : List (TableChange V)) :
    (after changes).Keeps (FlatTable.after changes) := by
  unfold after FlatTable.after
  have hempty := keeps_empty (V := V)
  generalize (empty : ScopeTable V) = s at hempty
  generalize (FlatTable.empty : FlatTable V) = F at hempty
  induction changes generalizing s F with
  | nil => exact hempty
  | cons change rest ih => exact ih _ _ (keeps_step hempty change).2

/-! ### What is listed and counted -/

theorem entries_sorted (s : ScopeTable V) (scope : Scope) :
    (s.entries scope).Pairwise fun a b => Text.bytes a.1 < Text.bytes b.1 := by
  refine ExtTreeMap.ordered_keys_toList.imp fun hlt => ?_
  exact Text.bytes_lt_bytes.mpr (compareOfLessAndEq_eq_lt.mp hlt)

theorem mem_entries : (name, value) ∈ s.entries scope ↔ s.get? scope name = some value :=
  ExtTreeMap.mem_toList_iff_getElem?_eq_some

/-- All keys, bucket by bucket. -/
def pairs (s : ScopeTable V) : List (Scope × String) :=
  s.buckets.toList.flatMap fun (scope, bucket) => bucket.keys.map fun name => (scope, name)

theorem length_pairs (s : ScopeTable V) : s.pairs.length = s.size := by
  rw [size, ExtTreeMap.foldl_eq_foldl_toList, pairs, List.length_flatMap, List.sum_eq_foldl,
    List.foldl_map]
  simp only [List.length_map, ExtTreeMap.length_keys]

theorem mem_pairs {key : Scope × String} :
    key ∈ s.pairs ↔ (s.get? key.1 key.2).isSome = true := by
  obtain ⟨scope, name⟩ := key
  have hlookup : s.get? scope name = s.buckets[scope]?.bind fun bucket => bucket[name]? := by
    rw [get?, bucket, ExtTreeMap.getD_eq_getD_getElem?]
    cases s.buckets[scope]? <;> simp
  simp only [pairs, hlookup, List.mem_flatMap, List.mem_map, Prod.exists, Prod.mk.injEq,
    ExtTreeMap.mem_toList_iff_getElem?_eq_some, ExtTreeMap.mem_keys, Option.isSome_bind,
    ExtTreeMap.mem_iff_isSome_getElem?, Option.any_eq_true]
  constructor
  · rintro ⟨_, bucket, hbucket, _, hname, rfl, rfl⟩
    exact ⟨bucket, hbucket, hname⟩
  · rintro ⟨bucket, hbucket, hname⟩
    exact ⟨scope, bucket, hbucket, name, hname, rfl, rfl⟩

theorem nodup_pairs (s : ScopeTable V) : s.pairs.Nodup := by
  refine List.nodup_flatMap.mpr ⟨fun entry _ => ?_, ?_⟩
  · have hkeys : entry.2.keys.Nodup := by
      refine ExtTreeMap.distinct_keys.imp fun hne heq => hne ?_
      rw [heq]
      exact compare_self
    exact hkeys.map (Prod.mk_right_injective entry.1)
  · -- Keys from two buckets differ in their scopes.
    refine ExtTreeMap.distinct_keys_toList.imp fun {a b} hne key ha hb => hne ?_
    obtain ⟨_, _, rfl⟩ := List.mem_map.mp ha
    obtain ⟨_, _, hsame⟩ := List.mem_map.mp hb
    have hscope : b.1 = a.1 := (Prod.mk.inj hsame).1
    rw [hscope]
    exact compare_self

theorem Keeps.size_eq (h : s.Keeps F) : s.size = F.keys.card := by
  have hkeys : s.pairs.toFinset = F.keys := by
    ext key
    rw [List.mem_toFinset, mem_pairs, F.mem_keys, h.lookup]
  rw [← hkeys, List.toFinset_card_of_nodup s.nodup_pairs, length_pairs]

theorem Keeps.isEmpty_iff (h : s.Keeps F) : s.isEmpty = true ↔ ∀ key, F.lookup key = none := by
  rw [isEmpty, beq_iff_eq, h.size_eq, Finset.card_eq_zero, Finset.eq_empty_iff_forall_notMem]
  refine forall_congr' fun key => ?_
  rw [F.mem_keys, Option.not_isSome_iff_eq_none]

/-- **A table of scopes is one flat table.** After any changes, whatever change comes next is
answered as the flat table has it, and every value is found where the flat table has it. What
is listed under a scope is what the flat table has there, in the order of the names' bytes;
the size is the number of its keys, and the table is empty if it has none. No bucket is empty. -/
theorem follows_flat (changes : List (TableChange V)) :
    let s := after changes
    let F := FlatTable.after changes
    (∀ change, (s.step change).1 = F.answer change ∧
      FlatTable.after (changes ++ [change]) = F.next change ∧
      after (changes ++ [change]) = (s.step change).2) ∧
    (∀ scope name, s.get? scope name = F.lookup (scope, name)) ∧
    (∀ scope, (s.entries scope).Pairwise (fun a b => Text.bytes a.1 < Text.bytes b.1) ∧
      ∀ name value, (name, value) ∈ s.entries scope ↔ F.lookup (scope, name) = some value) ∧
    s.size = F.keys.card ∧
    (s.isEmpty = true ↔ ∀ key, F.lookup key = none) ∧
    ∀ scope : Scope, s.buckets[scope]? ≠ some ∅ := by
  intro s F
  have h : s.Keeps F := keeps_after changes
  refine ⟨fun change => ⟨(keeps_step h change).1, List.foldl_append, List.foldl_append⟩, h.lookup,
    fun scope => ⟨s.entries_sorted scope, fun name value => ?_⟩, h.size_eq, h.isEmpty_iff, h.pruned⟩
  rw [mem_entries, h.lookup]

/-- A scope that has lost its last value holds nothing to drop, whatever others hold under the
same name. -/
example : ((after [.insert .global "a" 1, .insert .tab "a" 2, .erase .global "a"]).step
    (.dropScope .global)).1 = .flag false := by decide

end ScopeTable
end SharedViews

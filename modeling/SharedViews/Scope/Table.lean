import SharedViews.Scope
import Std.Data.ExtTreeMap

/-! Values stored under a scope.

Each scope that holds anything has a bucket of named values, and no bucket is
empty, so that dropping what a scope holds is dropping one bucket. Seen from
outside it is one finite table from a scope and a name to a value. -/
namespace SharedViews
open Std

structure ScopeTable (V : Type) where
  buckets : ExtTreeMap Scope (ExtTreeMap String V)

namespace ScopeTable
variable {V : Type}

def empty : ScopeTable V := ⟨∅⟩

instance : Inhabited (ScopeTable V) := ⟨empty⟩

def bucket (s : ScopeTable V) (scope : Scope) : ExtTreeMap String V := s.buckets.getD scope ∅

def get? (s : ScopeTable V) (scope : Scope) (name : String) : Option V := (s.bucket scope)[name]?

def insert (s : ScopeTable V) (scope : Scope) (name : String) (value : V) : ScopeTable V :=
  ⟨s.buckets.insert scope ((s.bucket scope).insert name value)⟩

/-- Removes one value, and the bucket with it when the value was its last. -/
def erase (s : ScopeTable V) (scope : Scope) (name : String) : ScopeTable V :=
  let rest := (s.bucket scope).erase name
  ⟨if rest.isEmpty then s.buckets.erase scope else s.buckets.insert scope rest⟩

/-- Drops everything under a scope. -/
def dropScope (s : ScopeTable V) (scope : Scope) : ScopeTable V := ⟨s.buckets.erase scope⟩

/-- Whether anything is stored under a scope. -/
def holds (s : ScopeTable V) (scope : Scope) : Bool := !(s.bucket scope).isEmpty

/-- Inserts a value; answers which one was there before. -/
def replace (s : ScopeTable V) (scope : Scope) (name : String) (value : V) :
    Option V × ScopeTable V :=
  (s.get? scope name, s.insert scope name value)

/-- Removes a value; answers which one it was. -/
def take (s : ScopeTable V) (scope : Scope) (name : String) : Option V × ScopeTable V :=
  (s.get? scope name, s.erase scope name)

/-- Drops everything under a scope; answers whether there was anything. -/
def clear (s : ScopeTable V) (scope : Scope) : Bool × ScopeTable V :=
  (s.holds scope, s.dropScope scope)

/-- What is stored under a scope, by name. -/
def entries (s : ScopeTable V) (scope : Scope) : List (String × V) := (s.bucket scope).toList

/-- The number of values under all scopes. -/
def size (s : ScopeTable V) : Nat :=
  s.buckets.foldl (fun n _ bucket => n + bucket.size) 0

def isEmpty (s : ScopeTable V) : Bool := s.size == 0

/-! ### What operations do to the table -/

theorem bucket_insert (s : ScopeTable V) (scope other : Scope) (name : String) (value : V) :
    (s.insert scope name value).bucket other =
      if scope = other then (s.bucket scope).insert name value else s.bucket other := by
  simp [bucket, insert, ExtTreeMap.getD_insert]

theorem bucket_erase (s : ScopeTable V) (scope other : Scope) (name : String) :
    (s.erase scope name).bucket other =
      if scope = other then (s.bucket scope).erase name else s.bucket other := by
  unfold erase
  by_cases h : ((s.bucket scope).erase name).isEmpty
  · simp only [h, if_true]
    rw [ExtTreeMap.isEmpty_iff.1 h]
    simp [bucket, ExtTreeMap.getD_erase]
  · simp only [h]
    simp [bucket, ExtTreeMap.getD_insert]

theorem bucket_dropScope (s : ScopeTable V) (scope other : Scope) :
    (s.dropScope scope).bucket other = if scope = other then ∅ else s.bucket other := by
  simp [bucket, dropScope, ExtTreeMap.getD_erase]

theorem get?_insert (s : ScopeTable V) (scope other : Scope) (name key : String) (value : V) :
    (s.insert scope name value).get? other key =
      if scope = other ∧ name = key then some value else s.get? other key := by
  simp only [get?, bucket_insert]
  by_cases h : scope = other
  · subst h; simp [ExtTreeMap.getElem?_insert]
  · simp [h]

theorem get?_erase (s : ScopeTable V) (scope other : Scope) (name key : String) :
    (s.erase scope name).get? other key =
      if scope = other ∧ name = key then none else s.get? other key := by
  simp only [get?, bucket_erase]
  by_cases h : scope = other
  · subst h; simp [ExtTreeMap.getElem?_erase]
  · simp [h]

theorem get?_dropScope (s : ScopeTable V) (scope other : Scope) (key : String) :
    (s.dropScope scope).get? other key = if scope = other then none else s.get? other key := by
  simp only [get?, bucket_dropScope]
  by_cases h : scope = other <;> simp [h]

end ScopeTable
end SharedViews

import SharedViews.Scope
import SharedViews.Scope.Groups

/-! Which contexts belong to which scopes.

Membership is one relation kept from both sides: the members of each scope and
the scopes of each context. The tab scope is never in it — it belongs to exactly
one context and has nothing to share. Joining says whether the context is new to
the scope; leaving says whether the scope lost its last member by it, and
`removeAll` gives all the scopes that did. -/
namespace SharedViews
open Std

abbrev ContextId := String

structure Membership where
  members : Groups Scope ContextId
  byContext : Groups ContextId Scope
  deriving Inhabited

namespace Membership

def empty : Membership := ⟨∅, ∅⟩

/-- The members of a scope, in order. -/
def membersOf (m : Membership) (scope : Scope) : List ContextId := (m.members.of scope).toList

/-- The scopes of a context, in order. -/
def scopesOf (m : Membership) (id : ContextId) : List Scope := (m.byContext.of id).toList

/-- The number of members. -/
def countOf (m : Membership) (scope : Scope) : Nat := (m.members.of scope).size

/-- The scopes with a member, in order. -/
def occupiedScopes (m : Membership) : List Scope := m.members.keys

/-- Adds a member; answers whether it was none before. -/
def join (m : Membership) (scope : Scope) (id : ContextId) : Bool × Membership :=
  if scope.isShared then
    (!(m.members.of scope).contains id, ⟨m.members.add scope id, m.byContext.add id scope⟩)
  else (false, m)

/-- Removes a member; answers whether it was the last one. -/
def leave (m : Membership) (scope : Scope) (id : ContextId) : Bool × Membership :=
  let members := m.members.remove scope id
  ((m.members.of scope).contains id && !members.contains scope,
    ⟨members, m.byContext.remove id scope⟩)

/-- Removes a context from all its scopes; answers those it leaves empty. -/
def removeAll (m : Membership) (id : ContextId) : List Scope × Membership :=
  let own := m.scopesOf id
  let members := own.foldl (fun members scope => members.remove scope id) m.members
  (own.filter fun scope => !members.contains scope, ⟨members, m.byContext.erase id⟩)

end Membership
end SharedViews

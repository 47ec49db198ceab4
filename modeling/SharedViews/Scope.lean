/-! Scopes: who may share a rendered view.

A scope is a partition of the live contexts. The tab scope holds one context and
is private; every other scope is shared by whoever belongs to it. Scopes are
ordered by breadth — tab, route, session, global, custom — and inside one kind
by their text. The text form tells the kinds apart by spelling alone: `parse`
reads back what `display` writes, except for a custom scope whose name is itself
the text of another kind. -/
namespace SharedViews

inductive Scope
  | tab
  | route (path : String)
  | session (id : String)
  | global
  | custom (name : String)
  deriving DecidableEq, Inhabited, Repr

namespace Scope

/-- Breadth, from the narrowest kind. -/
def rank : Scope → Nat
  | tab => 0
  | route _ => 1
  | session _ => 2
  | global => 3
  | custom _ => 4

/-- What the scope is about: a path, a session, a name. -/
def payload : Scope → String
  | tab | global => ""
  | route path => path
  | session id => id
  | custom name => name

instance : Ord Scope := ⟨compareLex (compareOn rank) (compareOn payload)⟩

instance : Std.TransOrd Scope :=
  inferInstanceAs (Std.TransCmp (compareLex (compareOn rank) (compareOn payload)))

instance : Std.LawfulEqOrd Scope where
  eq_of_compare {a b} h := by
    have h' : compareLex (compareOn rank) (compareOn payload) a b = .eq := h
    rw [compareLex_eq_eq] at h'
    have hr : a.rank = b.rank := Std.LawfulEqOrd.eq_of_compare h'.1
    have hp : a.payload = b.payload := Std.LawfulEqOrd.eq_of_compare h'.2
    cases a <;> cases b <;> simp_all [rank, payload]

/-- Whether a view rendered for the scope may be shown to more than one context. -/
def isShared : Scope → Bool
  | tab => false
  | _ => true

/-! ### Text form -/

def display : Scope → String
  | tab => "TAB"
  | route path => "ROUTE:" ++ path
  | session id => "SESSION:" ++ id
  | global => "GLOBAL"
  | custom name => name

/-- What follows `start` in a text that begins with it. -/
def after? (start : List Char) (text : List Char) : Option (List Char) :=
  if start.isPrefixOf text then some (text.drop start.length) else none

/-- The scope a text names. A text of no other kind names a custom scope. -/
def parse (text : String) : Scope :=
  if text = "TAB" then tab
  else if text = "GLOBAL" then global
  else match after? "ROUTE:".toList text.toList with
    | some path => route (String.ofList path)
    | none => match after? "SESSION:".toList text.toList with
      | some id => session (String.ofList id)
      | none => custom text

end Scope

/-! ### Kinds of render -/

/-- A first load renders the whole document; an update renders a piece again. -/
inductive RenderKind
  | initial
  | update
  deriving DecidableEq, Inhabited, Repr

namespace RenderKind

def rank : RenderKind → Nat
  | initial => 0
  | update => 1

instance : Ord RenderKind := ⟨compareOn rank⟩

instance : Std.TransOrd RenderKind := inferInstanceAs (Std.TransCmp (compareOn rank))

instance : Std.LawfulEqOrd RenderKind where
  eq_of_compare {a b} h := by
    have hr : a.rank = b.rank := Std.LawfulEqOrd.eq_of_compare (α := Nat) h
    cases a <;> cases b <;> simp_all [rank]

def name : RenderKind → String
  | initial => "initial"
  | update => "update"

end RenderKind

/-- What a cached view is stored under. -/
structure ViewKey where
  scope : Scope
  kind : RenderKind
  deriving DecidableEq, Inhabited, Repr

namespace ViewKey

instance : Ord ViewKey := ⟨compareLex (compareOn scope) (compareOn kind)⟩

instance : Std.TransOrd ViewKey :=
  inferInstanceAs (Std.TransCmp (compareLex (compareOn scope) (compareOn kind)))

instance : Std.LawfulEqOrd ViewKey where
  eq_of_compare {a b} h := by
    have h' : compareLex (compareOn scope) (compareOn kind) a b = .eq := h
    rw [compareLex_eq_eq] at h'
    have hs : a.scope = b.scope := Std.LawfulEqOrd.eq_of_compare h'.1
    have hk : a.kind = b.kind := Std.LawfulEqOrd.eq_of_compare h'.2
    cases a; cases b; simp_all

/-- An update's key is told from an initial one by a suffix. -/
def display (key : ViewKey) : String :=
  match key.kind with
  | .initial => key.scope.display
  | .update => key.scope.display ++ ":update"

end ViewKey
end SharedViews

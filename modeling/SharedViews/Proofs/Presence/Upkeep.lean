import SharedViews.Presence
import SharedViews.Proofs.Scope.Membership

/-! How membership follows the contexts.

Realigning, and the two operations made of it or of `removeAll`, touch membership
and the stores of the scopes they empty; the rest, the `registry`, they leave alone.
What they do to membership is one equation each: realigning a context takes it out
of the scopes it is to lose and into those it is to gain, unregistering takes it out
of all, and no other context's membership changes. -/
namespace SharedViews.Presence
open Std
variable {Hook : Type}

/-- All but membership and what is stored under scopes. -/
def registry (p : Presence Hook) : Presence Hook :=
  {p with scopes := .empty, signals := .empty, actions := .empty}

theorem contexts_of_registry {p q : Presence Hook} (h : p.registry = q.registry) :
    p.contexts = q.contexts := by
  have hcontexts := congrArg contexts h
  exact hcontexts

/-! ### One scope -/

theorem leave_eq (p : Presence Hook) (id : ContextId) (scope : Scope) :
    leave id p scope =
      if (p.scopes.leave scope id).1 then
        reclaim {p with scopes := (p.scopes.leave scope id).2} scope
      else {p with scopes := (p.scopes.leave scope id).2} := rfl

theorem scopes_leave (p : Presence Hook) (id : ContextId) (scope : Scope) :
    (leave id p scope).scopes = (p.scopes.leave scope id).2 := by
  rw [leave_eq]
  split <;> rfl

theorem registry_leave (p : Presence Hook) (id : ContextId) (scope : Scope) :
    (leave id p scope).registry = p.registry := by
  rw [leave_eq]
  split <;> rfl

/-! ### Several scopes -/

theorem joins_eq (p : Presence Hook) (id : ContextId) (own : List Scope) :
    own.foldl (join id) p =
      {p with scopes := own.foldl (fun m scope => (m.join scope id).2) p.scopes} := by
  induction own generalizing p with
  | nil => rfl
  | cons scope rest ih => exact ih (join id p scope)

theorem belongs_joins (p : Presence Hook) (id x : ContextId) (own : List Scope) (scope : Scope) :
    (own.foldl (join id) p).scopes.Belongs x scope ↔
      (scope ∈ own ∧ scope.isShared = true ∧ id = x) ∨ p.scopes.Belongs x scope := by
  induction own generalizing p with
  | nil => simp
  | cons s rest ih =>
    have hstep : (join id p s).scopes.Belongs x scope ↔
        (s.isShared = true ∧ s = scope ∧ id = x) ∨ p.scopes.Belongs x scope :=
      p.scopes.belongs_join s scope id x
    rw [List.foldl_cons, ih, hstep, List.mem_cons]
    grind

theorem sound_joins {p : Presence Hook} (hp : p.scopes.Sound) (id : ContextId)
    (own : List Scope) : (own.foldl (join id) p).scopes.Sound := by
  induction own generalizing p with
  | nil => exact hp
  | cons s rest ih => exact ih (p := join id p s) (hp.join s id)

theorem belongs_leaves (p : Presence Hook) (id x : ContextId) (own : List Scope)
    (scope : Scope) : (own.foldl (leave id) p).scopes.Belongs x scope ↔
      ¬ (scope ∈ own ∧ id = x) ∧ p.scopes.Belongs x scope := by
  induction own generalizing p with
  | nil => simp
  | cons s rest ih =>
    have hstep : (leave id p s).scopes.Belongs x scope ↔
        ¬ (s = scope ∧ id = x) ∧ p.scopes.Belongs x scope := by
      rw [scopes_leave]
      exact p.scopes.belongs_leave s scope id x
    rw [List.foldl_cons, ih, hstep, List.mem_cons]
    grind

theorem sound_leaves {p : Presence Hook} (hp : p.scopes.Sound) (id : ContextId)
    (own : List Scope) : (own.foldl (leave id) p).scopes.Sound := by
  induction own generalizing p with
  | nil => exact hp
  | cons s rest ih =>
    refine ih (p := leave id p s) ?_
    rw [scopes_leave]
    exact hp.leave s id

theorem registry_leaves (p : Presence Hook) (id : ContextId) (own : List Scope) :
    (own.foldl (leave id) p).registry = p.registry := by
  induction own generalizing p with
  | nil => rfl
  | cons s rest ih => exact (ih (leave id p s)).trans (p.registry_leave id s)

/-! ### From one set of scopes to another -/

/-- The scopes of `a` that are not in `b`. -/
def lacking (a b : ExtTreeSet Scope) : List Scope := a.toList.filter (!b.contains ·)

theorem mem_lacking (a b : ExtTreeSet Scope) (scope : Scope) :
    scope ∈ lacking a b ↔ scope ∈ a ∧ scope ∉ b := by
  have hb : (!b.contains scope) = true ↔ scope ∉ b := by
    rw [Bool.not_eq_true', ← Bool.not_eq_true, ExtTreeSet.contains_iff_mem]
  rw [lacking, List.mem_filter, ExtTreeSet.mem_toList, hb]

theorem registry_realign (p : Presence Hook) (id : ContextId) (before after : ExtTreeSet Scope) :
    (p.realign id before after).registry = p.registry := by
  have hjoins : ((lacking after before).foldl (join id) p).registry = p.registry := by
    rw [joins_eq]
    rfl
  exact (registry_leaves _ id (lacking before after)).trans hjoins

theorem sound_realign {p : Presence Hook} (hp : p.scopes.Sound) (id : ContextId)
    (before after : ExtTreeSet Scope) : (p.realign id before after).scopes.Sound :=
  sound_leaves (sound_joins hp id (lacking after before)) id (lacking before after)

theorem belongs_realign (p : Presence Hook) (id x : ContextId) (before after : ExtTreeSet Scope)
    (scope : Scope) : (p.realign id before after).scopes.Belongs x scope ↔
      ¬ (scope ∈ before ∧ scope ∉ after ∧ id = x) ∧
        ((scope ∈ after ∧ scope ∉ before ∧ scope.isShared = true ∧ id = x) ∨
          p.scopes.Belongs x scope) := by
  show (Membership.Belongs (List.foldl (leave id) _ (lacking before after)).scopes x scope) ↔ _
  rw [belongs_leaves, mem_lacking, and_assoc]
  show _ ∧ ((lacking after before).foldl (join id) p).scopes.Belongs x scope ↔ _
  rw [belongs_joins, mem_lacking, and_assoc]

/-- A context that was in exactly the scopes of `before` is in exactly those of `after`. -/
theorem belongs_realign_self {p : Presence Hook} {id : ContextId} {before after : ExtTreeSet Scope}
    (hbefore : ∀ scope, p.scopes.Belongs id scope ↔ scope ∈ before)
    (hafter : ∀ scope : Scope, scope ∈ after → scope.isShared = true) (scope : Scope) :
    (p.realign id before after).scopes.Belongs id scope ↔ scope ∈ after := by
  rw [belongs_realign, hbefore]
  have hshared := hafter scope
  grind

theorem belongs_realign_of_ne (p : Presence Hook) {id x : ContextId} (h : id ≠ x)
    (before after : ExtTreeSet Scope) (scope : Scope) :
    (p.realign id before after).scopes.Belongs x scope ↔ p.scopes.Belongs x scope := by
  rw [belongs_realign]
  simp [h]

/-! ### The operations -/

theorem cancel_eq (p : Presence Hook) (id : ContextId) :
    ∃ pending timers, p.cancel id = {p with pending, timers} := by
  unfold cancel
  split
  · exact ⟨_, _, rfl⟩
  · exact ⟨_, _, rfl⟩

/-- What registering records before membership is brought in line. -/
def recorded (p : Presence Hook) (c : Context Hook) : Presence Hook :=
  {p.cancel c.id with
    sessions := p.sessions.insert c.id c.session
    lastGeneration := p.lastGeneration + 1
    registrations := p.registrations.insert c.id (p.lastGeneration + 1)
    contexts := p.contexts.insert c.id c}

theorem register_eq (p : Presence Hook) (c : Context Hook) :
    p.register c = (p.recorded c).realign c.id (p.scopesOf c.id) c.scopes := by
  obtain ⟨pending, timers, h⟩ := p.cancel_eq c.id
  unfold register recorded
  rw [h]
  rfl

/-- What removing leaves of the records, the context itself being live. -/
def dismiss (p : Presence Hook) (id : ContextId) : Presence Hook :=
  cancel {p with
    contexts := p.contexts.erase id
    clients := p.clients.erase id
    sessions := p.sessions.erase id
    registrations := p.registrations.erase id} id

theorem reclaims_eq (p : Presence Hook) (own : List Scope) :
    own.foldl reclaim p =
      {p with
        signals := own.foldl ScopeTable.dropScope p.signals
        actions := own.foldl ScopeTable.dropScope p.actions} := by
  induction own generalizing p with
  | nil => rfl
  | cons scope rest ih => exact ih (p.reclaim scope)

theorem unregister_eq {p : Presence Hook} {id : ContextId} (h : id ∈ p.contexts) :
    p.unregister id =
      dismiss {p with
        scopes := (p.scopes.removeAll id).2
        signals := (p.scopes.removeAll id).1.foldl ScopeTable.dropScope p.signals
        actions := (p.scopes.removeAll id).1.foldl ScopeTable.dropScope p.actions} id := by
  have hcontains : p.contexts.contains id = true := h
  show (if p.contexts.contains id then _ else _ : Presence Hook) = _
  rw [if_pos hcontains]
  exact congrArg (fun q => dismiss q id) (reclaims_eq _ _)

theorem unregister_of_not_mem {p : Presence Hook} {id : ContextId} (h : id ∉ p.contexts) :
    p.unregister id = p := by
  have hcontains : ¬ p.contexts.contains id = true := h
  show (if p.contexts.contains id then _ else _ : Presence Hook) = _
  rw [if_neg hcontains]

theorem change_eq {α : Type} {p : Presence Hook} {id : ContextId} {c : Context Hook}
    (h : p.contexts[id]? = some c) (f : Context Hook → α × Context Hook) :
    (p.change id f).2 =
      realign {p with contexts := p.contexts.insert id (f c).2} id c.scopes (f c).2.scopes := by
  unfold change
  rw [h]

theorem change_of_none {α : Type} {p : Presence Hook} {id : ContextId}
    (h : p.contexts[id]? = none) (f : Context Hook → α × Context Hook) :
    (p.change id f).2 = p := by
  unfold change
  rw [h]

end SharedViews.Presence

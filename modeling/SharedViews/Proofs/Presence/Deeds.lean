import SharedViews.Proofs.Presence.Setters
import SharedViews.Proofs.Presence.Upkeep

/-! Runs of the registry of contexts.

A run is a list of deeds. The two halves of a firing are deeds of their own, so that
what the teardown hooks do, and what anybody else does while they run, are the deeds
in between; a second half is taken to come with any finding at all. Direct changes
of membership and writes to the stores are deeds too. `upshot` sorts the deeds into
the few things that can happen to the contexts and their membership. -/
namespace SharedViews
open Std

/-- One thing that is done to presence. -/
inductive Deed (Hook : Type)
  | register (c : Context Hook)
  | unregister (id : ContextId)
  | change (id : ContextId) (f : Context Hook → Context Hook)
  | navigate (id : ContextId) (route : String)
  | joinCustom (id : ContextId) (scope : Scope)
  | leaveCustom (id : ContextId) (scope : Scope)
  | schedule (id : ContextId) (due : Nat)
  | cancel (id : ContextId)
  | beginFiring (id : ContextId) (generation : Nat)
  | finishFiring (id : ContextId) (firing : Firing Hook)
  | addClient (client : Client)
  | dropClient (id : ContextId)
  | setGlobal (key : String) (value : Json)
  | writeSignal (scope : Scope) (key : String) (value : Json)
  | removeSignal (scope : Scope) (key : String)
  | addAction (scope : Scope) (key handler : String)
  | removeAction (scope : Scope) (key : String)
  | enroll (scope : Scope) (id : ContextId)
  | withdraw (scope : Scope) (id : ContextId)

namespace Deed
variable {Hook : Type}

/-- Membership is left to the contexts. -/
def Managed : Deed Hook → Prop
  | enroll _ _ | withdraw _ _ => False
  | _ => True

/-- A closure changes its context by setters only, which ones it may choose. -/
def BySetters : Deed Hook → Prop
  | change _ f => ∀ c, ∃ setters, f c = Setter.applyAll setters c
  | _ => True

/-- The hooks that the deed brings in have a property. -/
def Brings (P : Hook → Prop) : Deed Hook → Prop
  | register c => ∀ hook ∈ c.hooks, P hook
  | change _ f => ∀ c, (∀ hook ∈ c.hooks, P hook) → ∀ hook ∈ (f c).hooks, P hook
  | _ => True

theorem brings_onTeardown {P : Hook → Prop} {hook : Hook} (h : P hook) (id : ContextId) :
    (change id fun c => c.onTeardown hook).Brings P := by
  intro c hc other hother
  rcases List.mem_append.mp hother with hold | hnew
  · exact hc other hold
  · exact List.mem_singleton.mp hnew ▸ h

/-- The scope under which the deed stores something. -/
def target? : Deed Hook → Option Scope
  | writeSignal scope _ _ | addAction scope _ _ => some scope
  | _ => none

end Deed

namespace Presence
variable {Hook : Type}

def perform (p : Presence Hook) : Deed Hook → Presence Hook
  | .register c => p.register c
  | .unregister id => p.unregister id
  | .change id f => (p.change id fun c => ((), f c)).2
  | .navigate id route => (p.navigate id route).2
  | .joinCustom id scope => (p.joinCustom id scope).2
  | .leaveCustom id scope => (p.leaveCustom id scope).2
  | .schedule id due => p.schedule id due
  | .cancel id => p.cancel id
  | .beginFiring id generation => (p.beginFiring id generation).2
  | .finishFiring id firing => p.finishFiring id firing
  | .addClient client => p.addClient client
  | .dropClient id => p.dropClient id
  | .setGlobal key value => p.setGlobal key value
  | .writeSignal scope key value => {p with signals := p.signals.insert scope key value}
  | .removeSignal scope key => {p with signals := p.signals.erase scope key}
  | .addAction scope key handler => {p with actions := p.actions.insert scope key handler}
  | .removeAction scope key => {p with actions := p.actions.erase scope key}
  | .enroll scope id => {p with scopes := (p.scopes.join scope id).2}
  | .withdraw scope id => {p with scopes := (p.scopes.leave scope id).2}

/-- Deeds from first to last. -/
def after (p : Presence Hook) : List (Deed Hook) → Presence Hook
  | [] => p
  | d :: rest => (p.perform d).after rest

theorem after_append (p : Presence Hook) (a b : List (Deed Hook)) :
    p.after (a ++ b) = (p.after a).after b := by
  induction a generalizing p with
  | nil => rfl
  | cons d rest ih => exact ih _

/-- What holds initially and outlasts every deed of a kind holds after every run of
such deeds. -/
theorem after_induction (Inv : Presence Hook → Prop) (Allowed : Deed Hook → Prop)
    (hstep : ∀ p d, Inv p → Allowed d → Inv (p.perform d)) {p : Presence Hook} (hp : Inv p)
    {deeds : List (Deed Hook)} (hd : ∀ d ∈ deeds, Allowed d) : Inv (p.after deeds) := by
  induction deeds generalizing p with
  | nil => exact hp
  | cons d rest ih =>
    have hnext := hstep p d hp (hd d List.mem_cons_self)
    exact ih hnext fun e he => hd e (List.mem_cons_of_mem d he)

theorem after_invariant (Inv : Presence Hook → Prop)
    (hstep : ∀ p d, Inv p → Inv (p.perform d)) {p : Presence Hook} (hp : Inv p)
    (deeds : List (Deed Hook)) :
    Inv (p.after deeds) :=
  after_induction Inv (fun _ => True) (fun q d hq _ => hstep q d hq) hp fun _ _ => trivial

/-! ### What a deed comes to -/

/-- Contexts, membership and stores are the same. -/
structure Alike (p q : Presence Hook) : Prop where
  contexts : q.contexts = p.contexts
  sessions : q.sessions = p.sessions
  registrations : q.registrations = p.registrations
  scopes : q.scopes = p.scopes
  signals : q.signals = p.signals
  actions : q.actions = p.actions

theorem Alike.refl (p : Presence Hook) : Alike p p := ⟨rfl, rfl, rfl, rfl, rfl, rfl⟩

theorem alike_cancel (p : Presence Hook) (id : ContextId) : Alike p (p.cancel id) := by
  obtain ⟨pending, timers, h⟩ := p.cancel_eq id
  rw [h]
  exact ⟨rfl, rfl, rfl, rfl, rfl, rfl⟩

theorem alike_schedule (p : Presence Hook) (id : ContextId) (due : Nat) :
    Alike p (p.schedule id due) := by
  have h := p.alike_cancel id
  exact ⟨h.contexts, h.sessions, h.registrations, h.scopes, h.signals, h.actions⟩

theorem alike_beginFiring (p : Presence Hook) (id : ContextId) (generation : Nat) :
    Alike p (p.beginFiring id generation).2 := by
  unfold beginFiring
  split
  · exact p.alike_cancel id
  · exact .refl p

/-- What becomes of the contexts, of membership and of the stores. -/
inductive Upshot (p : Presence Hook) : Deed Hook → Presence Hook → Prop
  | register (c : Context Hook) : Upshot p (.register c) (p.register c)
  | unregister (d : Deed Hook) (id : ContextId) : Upshot p d (p.unregister id)
  /-- The change is the deed's own, or an edit. -/
  | change (d : Deed Hook) (id : ContextId) (f : Context Hook → Context Hook)
      (source : d = .change id f ∨ ∃ e : Edit, ∀ c, f c = (e.apply c).2) :
      Upshot p d (p.change id fun c => ((), f c)).2
  | enroll (scope : Scope) (id : ContextId) :
      Upshot p (.enroll scope id) {p with scopes := (p.scopes.join scope id).2}
  | withdraw (scope : Scope) (id : ContextId) :
      Upshot p (.withdraw scope id) {p with scopes := (p.scopes.leave scope id).2}
  /-- Only under its target may the deed store anything new. -/
  | store (d : Deed Hook) (signals : ScopeTable Json) (actions : ScopeTable String)
      (oldSignals : ∀ scope key, d.target? ≠ some scope → signals.get? scope key ≠ none →
        p.signals.get? scope key ≠ none)
      (oldActions : ∀ scope key, d.target? ≠ some scope → actions.get? scope key ≠ none →
        p.actions.get? scope key ≠ none) : Upshot p d {p with signals, actions}
  | aside (d : Deed Hook) (q : Presence Hook) (alike : Alike p q) : Upshot p d q

/-- Only what a change makes of the context matters, not what it answers. -/
theorem change_snd {α : Type} (p : Presence Hook) (id : ContextId)
    (f : Context Hook → α × Context Hook) :
    (p.change id f).2 = p.perform (.change id fun c => (f c).2) := by
  show _ = (p.change id fun c => ((), (f c).2)).2
  cases h : p.contexts[id]? with
  | none => rw [change_of_none h, change_of_none h]
  | some c => rw [change_eq h, change_eq h]

theorem old_of_insert {V : Type} {d : Deed Hook} {table : ScopeTable V} {scope : Scope}
    {name : String} {value : V} (hd : d.target? = some scope) (other : Scope) (key : String)
    (hother : d.target? ≠ some other) (h : (table.insert scope name value).get? other key ≠ none) :
    table.get? other key ≠ none := by
  have hne : scope ≠ other := by
    intro hsame
    rw [← hsame] at hother
    exact hother hd
  rw [ScopeTable.get?_insert, if_neg fun hboth => hne hboth.1] at h
  exact h

theorem old_of_erase {V : Type} {table : ScopeTable V} {scope other : Scope} {name key : String}
    (h : (table.erase scope name).get? other key ≠ none) : table.get? other key ≠ none := by
  rw [ScopeTable.get?_erase] at h
  by_cases hsame : scope = other ∧ name = key
  · rw [if_pos hsame] at h
    exact absurd rfl h
  · rw [if_neg hsame] at h
    exact h

theorem upshot (p : Presence Hook) (d : Deed Hook) : Upshot p d (p.perform d) := by
  cases d with
  | register c => exact .register c
  | unregister id => exact .unregister _ id
  | change id f => exact .change _ id f (.inl rfl)
  | navigate id route =>
    exact .change _ id _ (.inr ⟨.setRoute route, fun _ => rfl⟩)
  | joinCustom id scope =>
    have h : p.perform (.joinCustom id scope) = _ := p.change_snd id (·.joinCustom scope)
    rw [h]
    exact .change _ id _ (.inr ⟨.joinCustom scope, fun _ => rfl⟩)
  | leaveCustom id scope =>
    have h : p.perform (.leaveCustom id scope) = _ := p.change_snd id (·.leaveCustom scope)
    rw [h]
    exact .change _ id _ (.inr ⟨.leaveCustom scope, fun _ => rfl⟩)
  | schedule id due => exact .aside _ _ (p.alike_schedule id due)
  | cancel id => exact .aside _ _ (p.alike_cancel id)
  | beginFiring id generation => exact .aside _ _ (p.alike_beginFiring id generation)
  | finishFiring id firing =>
    show Upshot p _ (if _ then _ else _)
    split
    · exact .unregister _ id
    · exact .aside _ _ (.refl p)
  | addClient client => exact .aside _ _ ⟨rfl, rfl, rfl, rfl, rfl, rfl⟩
  | dropClient id => exact .aside _ _ ⟨rfl, rfl, rfl, rfl, rfl, rfl⟩
  | setGlobal key value => exact .aside _ _ ⟨rfl, rfl, rfl, rfl, rfl, rfl⟩
  | writeSignal scope key value =>
    exact .store _ _ _ (old_of_insert rfl) fun _ _ _ h => h
  | removeSignal scope key =>
    exact .store _ _ _ (fun _ _ _ => old_of_erase) fun _ _ _ h => h
  | addAction scope key handler =>
    exact .store _ _ _ (fun _ _ _ h => h) (old_of_insert rfl)
  | removeAction scope key =>
    exact .store _ _ _ (fun _ _ _ h => h) fun _ _ _ => old_of_erase
  | enroll scope id => exact .enroll scope id
  | withdraw scope id => exact .withdraw scope id

/-! ### Membership stays sound -/

theorem sound_register {p : Presence Hook} (hp : p.scopes.Sound) (c : Context Hook) :
    (p.register c).scopes.Sound := by
  have hrecorded : (p.recorded c).scopes = p.scopes := (p.alike_cancel c.id).scopes
  rw [register_eq]
  exact sound_realign (hrecorded ▸ hp) _ _ _

theorem contexts_register (p : Presence Hook) (c : Context Hook) :
    (p.register c).contexts = p.contexts.insert c.id c := by
  rw [register_eq]
  exact contexts_of_registry (registry_realign _ _ _ _)

theorem scopes_unregister {p : Presence Hook} {id : ContextId} (h : id ∈ p.contexts) :
    (p.unregister id).scopes = (p.scopes.removeAll id).2 := by
  rw [unregister_eq h]
  exact (alike_cancel _ id).scopes

theorem contexts_unregister {p : Presence Hook} {id : ContextId} (h : id ∈ p.contexts) :
    (p.unregister id).contexts = p.contexts.erase id := by
  rw [unregister_eq h]
  exact (alike_cancel _ id).contexts

theorem sound_unregister {p : Presence Hook} (hp : p.scopes.Sound) (id : ContextId) :
    (p.unregister id).scopes.Sound := by
  by_cases h : id ∈ p.contexts
  · rw [scopes_unregister h]
    exact hp.removeAll id
  · rw [unregister_of_not_mem h]
    exact hp

theorem sound_change {α : Type} {p : Presence Hook} (hp : p.scopes.Sound) (id : ContextId)
    (f : Context Hook → α × Context Hook) : (p.change id f).2.scopes.Sound := by
  cases h : p.contexts[id]? with
  | none =>
    rw [change_of_none h]
    exact hp
  | some c =>
    rw [change_eq h]
    refine sound_realign ?_ _ _ _
    exact hp

theorem sound_perform {p : Presence Hook} (hp : p.scopes.Sound) (d : Deed Hook) :
    (p.perform d).scopes.Sound := by
  have hupshot := p.upshot d
  generalize p.perform d = q at hupshot ⊢
  cases hupshot with
  | register c => exact sound_register hp c
  | unregister _ id => exact sound_unregister hp id
  | change _ id f _ => exact sound_change hp id _
  | enroll scope id => exact hp.join scope id
  | withdraw scope id => exact hp.leave scope id
  | store => exact hp
  | aside _ _ alike => exact alike.scopes ▸ hp

theorem sound_after (deeds : List (Deed Hook)) :
    ((empty : Presence Hook).after deeds).scopes.Sound :=
  after_invariant (fun p => p.scopes.Sound) (fun _ d hp => sound_perform hp d)
    Membership.sound_empty deeds

/-! ### Hooks come from somewhere -/

/-- The hooks of the live contexts have a property. -/
def Hooked (P : Hook → Prop) (p : Presence Hook) : Prop :=
  ∀ (id : ContextId) (c : Context Hook), p.contexts[id]? = some c → ∀ hook ∈ c.hooks, P hook

theorem hooked_insert {P : Hook → Prop} {p q : Presence Hook} {id : ContextId} {c : Context Hook}
    (hp : Hooked P p) (hq : q.contexts = p.contexts.insert id c) (hc : ∀ hook ∈ c.hooks, P hook) :
    Hooked P q := by
  intro x d hd
  rw [hq, ExtTreeMap.getElem?_insert] at hd
  by_cases hx : id = x
  · rw [if_pos (Std.compare_eq_iff_eq.mpr hx)] at hd
    cases hd
    exact hc
  · rw [if_neg fun h => hx (Std.compare_eq_iff_eq.mp h)] at hd
    exact hp x d hd

theorem hooked_register {P : Hook → Prop} {p : Presence Hook} (hp : Hooked P p)
    {c : Context Hook} (hc : ∀ hook ∈ c.hooks, P hook) : Hooked P (p.register c) :=
  hooked_insert hp (p.contexts_register c) hc

theorem hooked_unregister {P : Hook → Prop} {p : Presence Hook} (hp : Hooked P p)
    (id : ContextId) : Hooked P (p.unregister id) := by
  by_cases hid : id ∈ p.contexts
  · intro x c hc
    rw [contexts_unregister hid, ExtTreeMap.getElem?_erase] at hc
    by_cases hx : id = x
    · simp [hx] at hc
    · simp only [hx, Std.compare_eq_iff_eq, if_false] at hc
      exact hp x c hc
  · rw [unregister_of_not_mem hid]
    exact hp

theorem hooked_change {P : Hook → Prop} {p : Presence Hook} (hp : Hooked P p) (id : ContextId)
    {f : Context Hook → Context Hook}
    (hf : ∀ c, (∀ hook ∈ c.hooks, P hook) → ∀ hook ∈ (f c).hooks, P hook) :
    Hooked P (p.change id fun c => ((), f c)).2 := by
  cases hc : p.contexts[id]? with
  | none =>
    rw [change_of_none hc]
    exact hp
  | some c =>
    rw [change_eq hc]
    have hcontexts := contexts_of_registry (registry_realign
      {p with contexts := p.contexts.insert id (f c)} id c.scopes (f c).scopes)
    exact hooked_insert hp hcontexts (hf c (hp id c hc))

theorem hooked_perform {P : Hook → Prop} {p : Presence Hook} (hp : Hooked P p) {d : Deed Hook}
    (hd : d.Brings P) : Hooked P (p.perform d) := by
  have hupshot := p.upshot d
  generalize p.perform d = q at hupshot ⊢
  cases hupshot with
  | register c => exact hooked_register hp hd
  | unregister _ id => exact hooked_unregister hp id
  | change _ id f source =>
    refine hooked_change hp id ?_
    rcases source with rfl | ⟨e, he⟩
    · exact hd
    · intro c hc
      rw [he, Edit.hooks_apply]
      exact hc
  | enroll scope id => exact hp
  | withdraw scope id => exact hp
  | store => exact hp
  | aside _ _ alike =>
    intro x c hc
    rw [alike.contexts] at hc
    exact hp x c hc

theorem Hooked.after {P : Hook → Prop} {p : Presence Hook} (hp : Hooked P p)
    {deeds : List (Deed Hook)} (hd : ∀ d ∈ deeds, d.Brings P) : Hooked P (p.after deeds) :=
  after_induction (Hooked P) (Deed.Brings P) (fun _ _ hq hd => hooked_perform hq hd) hp hd

theorem hooked_after {P : Hook → Prop} {deeds : List (Deed Hook)}
    (hd : ∀ d ∈ deeds, d.Brings P) : Hooked P ((empty : Presence Hook).after deeds) := by
  refine Hooked.after ?_ hd
  intro id c hc
  simp [empty] at hc

/-- A firing tears down the context that is live under its id. -/
theorem context_of_beginFiring {p q : Presence Hook} {id : ContextId} {generation : Nat}
    {firing : Firing Hook} (h : p.beginFiring id generation = (some firing, q)) :
    p.contexts[id]? = some firing.context := by
  unfold beginFiring at h
  split at h
  · cases hc : p.contexts[id]? with
    | none => simp [hc] at h
    | some c =>
      simp only [hc, Option.map_some, Prod.mk.injEq, Option.some.injEq] at h
      rw [← h.1]
  · simp at h

end Presence
end SharedViews

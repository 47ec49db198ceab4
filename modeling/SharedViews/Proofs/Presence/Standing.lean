import SharedViews.Proofs.Presence.Deeds

/-! What is written down under one id.

The standing of an id is its registration, its pending cleanup and its client.
`fate` lists what a deed can do to it, guards included, and what is known of single
ids over whole runs follows from that: an id has a registration exactly while it is
live (`Registered.after`), and since no generation is given twice, an id that was
registered anew or removed never has the registration again that it had
(`renewed_after`). -/
namespace SharedViews
open Std

structure Standing where
  registration : Option Nat
  pending : Option Nat
  client : Option Client

namespace Presence
variable {Hook : Type} {p q : Presence Hook} {id x : ContextId} {d : Deed Hook}

def standing (p : Presence Hook) (id : ContextId) : Standing :=
  ⟨p.registrations[id]?, p.pending[id]?, p.clients[id]?⟩

/-! ### One operation -/

theorem standing_of_registry (h : p.registry = q.registry) (id : ContextId) :
    p.standing id = q.standing id := by
  have hstanding := congrArg (fun r => r.standing id) h
  exact hstanding

theorem lastGeneration_of_registry (h : p.registry = q.registry) :
    p.lastGeneration = q.lastGeneration := by
  have hlast := congrArg lastGeneration h
  exact hlast

theorem lastGeneration_cancel (p : Presence Hook) (id : ContextId) :
    (p.cancel id).lastGeneration = p.lastGeneration := by
  obtain ⟨_, _, h⟩ := p.cancel_eq id
  rw [h]

theorem pending_cancel (p : Presence Hook) (id x : ContextId) :
    (p.cancel id).pending[x]? = if id = x then none else p.pending[x]? := by
  unfold cancel
  split
  next generation h =>
    show (p.pending.erase id)[x]? = _
    rw [ExtTreeMap.getElem?_erase]
    simp only [Std.compare_eq_iff_eq]
  next h =>
    by_cases hx : id = x
    · rw [if_pos hx, ← hx, h]
    · rw [if_neg hx]

theorem standing_cancel (p : Presence Hook) (id x : ContextId) :
    (p.cancel id).standing x =
      if id = x then {p.standing x with pending := none} else p.standing x := by
  have hpending := p.pending_cancel id x
  obtain ⟨_, _, h⟩ := p.cancel_eq id
  rw [h] at hpending ⊢
  show (⟨p.registrations[x]?, _, p.clients[x]?⟩ : Standing) = _
  rw [hpending]
  split <;> rfl

theorem standing_register (p : Presence Hook) (c : Context Hook) (x : ContextId) :
    (p.register c).standing x =
      if c.id = x then ⟨some (p.lastGeneration + 1), none, p.clients[x]?⟩ else p.standing x := by
  rw [register_eq, standing_of_registry (registry_realign _ _ _ _)]
  obtain ⟨_, _, h⟩ := p.cancel_eq c.id
  have hclients : (p.recorded c).clients = p.clients := by
    unfold recorded
    rw [h]
  show (⟨(p.registrations.insert c.id (p.lastGeneration + 1))[x]?, (p.cancel c.id).pending[x]?,
    (p.recorded c).clients[x]?⟩ : Standing) = _
  rw [ExtTreeMap.getElem?_insert, pending_cancel, hclients]
  simp only [Std.compare_eq_iff_eq]
  split <;> rfl

theorem lastGeneration_register (p : Presence Hook) (c : Context Hook) :
    (p.register c).lastGeneration = p.lastGeneration + 1 := by
  rw [register_eq, lastGeneration_of_registry (registry_realign _ _ _ _)]
  rfl

theorem standing_unregister (h : id ∈ p.contexts) (x : ContextId) :
    (p.unregister id).standing x = if id = x then ⟨none, none, none⟩ else p.standing x := by
  rw [unregister_eq h, dismiss, standing_cancel]
  show (if id = x then (⟨(p.registrations.erase id)[x]?, none, (p.clients.erase id)[x]?⟩ : Standing)
    else ⟨(p.registrations.erase id)[x]?, p.pending[x]?, (p.clients.erase id)[x]?⟩) = _
  rw [ExtTreeMap.getElem?_erase, ExtTreeMap.getElem?_erase]
  by_cases hx : id = x
  · simp [hx]
  · simp only [Std.compare_eq_iff_eq, hx, if_false]
    rfl

theorem lastGeneration_unregister (p : Presence Hook) (id : ContextId) :
    (p.unregister id).lastGeneration = p.lastGeneration := by
  by_cases h : id ∈ p.contexts
  · rw [unregister_eq h, dismiss, lastGeneration_cancel]
  · rw [unregister_of_not_mem h]

theorem registry_change {α : Type} (p : Presence Hook) (id : ContextId)
    (f : Context Hook → α × Context Hook) :
    ∃ contexts, (p.change id f).2.registry = {p with contexts}.registry := by
  cases h : p.contexts[id]? with
  | none => exact ⟨p.contexts, by rw [change_of_none h]⟩
  | some c => exact ⟨_, by rw [change_eq h, registry_realign]⟩

theorem standing_change {α : Type} (p : Presence Hook) (id : ContextId)
    (f : Context Hook → α × Context Hook) (x : ContextId) :
    (p.change id f).2.standing x = p.standing x := by
  obtain ⟨_, h⟩ := p.registry_change id f
  exact standing_of_registry h x

theorem lastGeneration_change {α : Type} (p : Presence Hook) (id : ContextId)
    (f : Context Hook → α × Context Hook) :
    (p.change id f).2.lastGeneration = p.lastGeneration := by
  obtain ⟨_, h⟩ := p.registry_change id f
  have hlast := lastGeneration_of_registry h
  exact hlast

theorem standing_schedule (p : Presence Hook) (id : ContextId) (due : Nat) (x : ContextId) :
    (p.schedule id due).standing x =
      if id = x then {p.standing x with pending := some (p.lastGeneration + 1)}
      else p.standing x := by
  have hcancel := p.standing_cancel id x
  have hlast := p.lastGeneration_cancel id
  show {(p.cancel id).standing x with
    pending := ((p.cancel id).pending.insert id ((p.cancel id).lastGeneration + 1))[x]?} = _
  rw [ExtTreeMap.getElem?_insert, hlast, hcancel, pending_cancel]
  by_cases hx : id = x
  · simp [hx]
  · simp only [Std.compare_eq_iff_eq, hx, if_false]
    rfl

theorem lastGeneration_schedule (p : Presence Hook) (id : ContextId) (due : Nat) :
    (p.schedule id due).lastGeneration = p.lastGeneration + 1 :=
  congrArg (· + 1) (p.lastGeneration_cancel id)

theorem standing_addClient (p : Presence Hook) (client : Client) (x : ContextId) :
    (p.addClient client).standing x =
      if client.id = x then {p.standing x with client := some client} else p.standing x := by
  show (⟨p.registrations[x]?, p.pending[x]?,
    (p.clients.insert client.id client)[x]?⟩ : Standing) = _
  rw [ExtTreeMap.getElem?_insert]
  simp only [Std.compare_eq_iff_eq]
  split <;> rfl

theorem standing_dropClient (p : Presence Hook) (id x : ContextId) :
    (p.dropClient id).standing x =
      if id = x then {p.standing x with client := none} else p.standing x := by
  show (⟨p.registrations[x]?, p.pending[x]?, (p.clients.erase id)[x]?⟩ : Standing) = _
  rw [ExtTreeMap.getElem?_erase]
  simp only [Std.compare_eq_iff_eq]
  split <;> rfl

theorem not_isPending_iff : ¬ p.isPending id = true ↔ p.pending[id]? = none := by
  show ¬ p.pending.contains id = true ↔ _
  rw [ExtTreeMap.contains_eq_isSome_getElem?, Bool.not_eq_true, Option.isSome_eq_false_iff,
    Option.isNone_iff_eq_none]

/-! ### One deed -/

/-- The deed removes what is live under the id. -/
def Removes (p : Presence Hook) (id : ContextId) (d : Deed Hook) : Prop :=
  d = .unregister id ∨ ∃ firing, d = .finishFiring id firing ∧
    p.registrations[id]? = firing.registration ∧ p.pending[id]? = none

/-- The deed takes the id's pending cleanup back, or begins its firing. -/
def Stops (p : Presence Hook) (id : ContextId) (d : Deed Hook) : Prop :=
  d = .cancel id ∨ ∃ generation, d = .beginFiring id generation ∧ p.pending[id]? = some generation

/-- What becomes of the standing of an id. -/
inductive Fate (p : Presence Hook) (id : ContextId) (q : Presence Hook) : Deed Hook → Prop
  | keep (d : Deed Hook) (standing : q.standing id = p.standing id) : Fate p id q d
  | register (c : Context Hook) (own : c.id = id)
      (standing : q.standing id = ⟨some (p.lastGeneration + 1), none, p.clients[id]?⟩) :
      Fate p id q (.register c)
  | remove (d : Deed Hook) (removes : p.Removes id d) (live : id ∈ p.contexts)
      (standing : q.standing id = ⟨none, none, none⟩) : Fate p id q d
  | schedule (due : Nat) (standing : q.standing id =
      {p.standing id with pending := some (p.lastGeneration + 1)}) : Fate p id q (.schedule id due)
  | stop (d : Deed Hook) (stops : p.Stops id d)
      (standing : q.standing id = {p.standing id with pending := none}) : Fate p id q d
  | addClient (client : Client) (own : client.id = id)
      (standing : q.standing id = {p.standing id with client := some client}) :
      Fate p id q (.addClient client)
  | dropClient (standing : q.standing id = {p.standing id with client := none}) :
      Fate p id q (.dropClient id)

theorem fate_cancel (hd : p.Stops x d) (id : ContextId) : Fate p id (p.cancel x) d := by
  have h := p.standing_cancel x id
  by_cases hid : x = id
  · subst hid
    rw [if_pos rfl] at h
    exact .stop d hd h
  · rw [if_neg hid] at h
    exact .keep d h

theorem fate_unregister (hd : p.Removes x d) (id : ContextId) : Fate p id (p.unregister x) d := by
  by_cases hlive : x ∈ p.contexts
  · have h := standing_unregister hlive id
    by_cases hid : x = id
    · subst hid
      rw [if_pos rfl] at h
      exact .remove d hd hlive h
    · rw [if_neg hid] at h
      exact .keep d h
  · rw [unregister_of_not_mem hlive]
    exact .keep d rfl

theorem fate (p : Presence Hook) (id : ContextId) (d : Deed Hook) :
    Fate p id (p.perform d) d := by
  cases d with
  | register c =>
    have h : (p.perform (.register c)).standing id = _ := p.standing_register c id
    by_cases hid : c.id = id
    · rw [if_pos hid] at h
      exact .register c hid h
    · rw [if_neg hid] at h
      exact .keep _ h
  | unregister x => exact fate_unregister (.inl rfl) id
  | change x f => exact .keep _ (p.standing_change x _ id)
  | navigate x route => exact .keep _ (p.standing_change x (fun c => ((), {c with route})) id)
  | joinCustom x scope => exact .keep _ (p.standing_change x _ id)
  | leaveCustom x scope => exact .keep _ (p.standing_change x _ id)
  | schedule x due =>
    have h : (p.perform (.schedule x due)).standing id = _ := p.standing_schedule x due id
    by_cases hid : x = id
    · subst hid
      rw [if_pos rfl] at h
      exact .schedule due h
    · rw [if_neg hid] at h
      exact .keep _ h
  | cancel x => exact fate_cancel (.inl rfl) id
  | beginFiring x generation =>
    show Fate p id (p.beginFiring x generation).2 _
    unfold beginFiring
    split
    next h => exact fate_cancel (.inr ⟨generation, rfl, h⟩) id
    next => exact .keep _ rfl
  | finishFiring x firing =>
    show Fate p id (if _ then _ else _) _
    split
    next h => exact fate_unregister (.inr ⟨firing, rfl, h.1, not_isPending_iff.mp h.2⟩) id
    next => exact .keep _ rfl
  | addClient client =>
    have h : (p.perform (.addClient client)).standing id = _ := p.standing_addClient client id
    by_cases hid : client.id = id
    · rw [if_pos hid] at h
      exact .addClient client hid h
    · rw [if_neg hid] at h
      exact .keep _ h
  | dropClient x =>
    have h : (p.perform (.dropClient x)).standing id = _ := p.standing_dropClient x id
    by_cases hid : x = id
    · subst hid
      rw [if_pos rfl] at h
      exact .dropClient h
    · rw [if_neg hid] at h
      exact .keep _ h
  | _ => exact .keep _ rfl

theorem lastGeneration_perform (p : Presence Hook) (d : Deed Hook) :
    p.lastGeneration ≤ (p.perform d).lastGeneration := by
  have hcancel : ∀ x, p.lastGeneration ≤ (p.cancel x).lastGeneration :=
    fun x => Nat.le_of_eq (p.lastGeneration_cancel x).symm
  have hchange : ∀ {α : Type} x (f : Context Hook → α × Context Hook),
      p.lastGeneration ≤ (p.change x f).2.lastGeneration :=
    fun x f => Nat.le_of_eq (p.lastGeneration_change x f).symm
  have hunregister : ∀ x, p.lastGeneration ≤ (p.unregister x).lastGeneration :=
    fun x => Nat.le_of_eq (p.lastGeneration_unregister x).symm
  cases d with
  | register c => exact Nat.le.intro (p.lastGeneration_register c).symm
  | unregister x => exact hunregister x
  | change x f => exact hchange x _
  | navigate x route => exact hchange x fun c => ((), {c with route})
  | joinCustom x scope => exact hchange x (·.joinCustom scope)
  | leaveCustom x scope => exact hchange x (·.leaveCustom scope)
  | schedule x due => exact Nat.le.intro (p.lastGeneration_schedule x due).symm
  | cancel x => exact hcancel x
  | beginFiring x generation =>
    show _ ≤ (p.beginFiring x generation).2.lastGeneration
    unfold beginFiring
    split
    · exact hcancel x
    · exact Nat.le_refl _
  | finishFiring x firing =>
    show _ ≤ (if _ then _ else _ : Presence Hook).lastGeneration
    split
    · exact hunregister x
    · exact Nat.le_refl _
  | _ => exact Nat.le_refl _

/-- What becomes of a registration alone. -/
theorem registration_perform (p : Presence Hook) (id : ContextId) (d : Deed Hook) :
    (p.perform d).registrations[id]? = p.registrations[id]? ∨
      ((p.perform d).registrations[id]? = some (p.lastGeneration + 1) ∧
        ∃ c, d = .register c ∧ c.id = id) ∨
      (p.perform d).registrations[id]? = none ∧ p.Removes id d := by
  cases p.fate id d with
  | register c hid hs => exact .inr (.inl ⟨congrArg Standing.registration hs, c, rfl, hid⟩)
  | remove _ hd _ hs => exact .inr (.inr ⟨congrArg Standing.registration hs, hd⟩)
  | keep _ hs => exact .inl (congrArg Standing.registration hs)
  | schedule _ hs => exact .inl (congrArg Standing.registration hs)
  | stop _ _ hs => exact .inl (congrArg Standing.registration hs)
  | addClient _ _ hs => exact .inl (congrArg Standing.registration hs)
  | dropClient hs => exact .inl (congrArg Standing.registration hs)

/-! ### Over whole runs -/

theorem lastGeneration_after (p : Presence Hook) (deeds : List (Deed Hook)) :
    p.lastGeneration ≤ (p.after deeds).lastGeneration :=
  after_invariant (fun q => p.lastGeneration ≤ q.lastGeneration)
    (fun q d hq => Nat.le_trans hq (q.lastGeneration_perform d)) (Nat.le_refl _) deeds

/-- No registration has a generation that is still to be given. -/
def Dated (p : Presence Hook) : Prop :=
  ∀ (id : ContextId) (generation : Nat), p.registrations[id]? = some generation →
    generation ≤ p.lastGeneration

theorem dated_perform (hp : Dated p) (d : Deed Hook) : Dated (p.perform d) := by
  intro id generation h
  have hlast := p.lastGeneration_perform d
  rcases p.registration_perform id d with hsame | ⟨hfresh, c, rfl, _⟩ | ⟨hnone, _⟩
  · exact Nat.le_trans (hp id generation (hsame.symm.trans h)) hlast
  · obtain rfl := Option.some.inj (hfresh.symm.trans h)
    exact Nat.le_of_eq (p.lastGeneration_register c).symm
  · cases hnone.symm.trans h

theorem Dated.after (hp : Dated p) (deeds : List (Deed Hook)) : Dated (p.after deeds) :=
  after_invariant Dated (fun _ d hq => dated_perform hq d) hp deeds

theorem dated_empty : Dated (empty : Presence Hook) := by
  intro id generation h
  simp [empty] at h

/-- An id has a registration exactly while it is live. -/
def Registered (p : Presence Hook) : Prop := ∀ id, id ∈ p.registrations ↔ id ∈ p.contexts

theorem mem_registrations_iff : id ∈ p.registrations ↔ (p.standing id).registration.isSome = true :=
  ExtTreeMap.mem_iff_isSome_getElem?

theorem registered_register (hp : Registered p) (c : Context Hook) : Registered (p.register c) := by
  intro id
  rw [mem_registrations_iff, standing_register, contexts_register, ExtTreeMap.mem_insert,
    Std.compare_eq_iff_eq]
  by_cases hid : c.id = id
  · simp [hid]
  · rw [if_neg hid, ← mem_registrations_iff, hp id]
    simp [hid]

theorem registered_unregister (hp : Registered p) (id : ContextId) :
    Registered (p.unregister id) := by
  by_cases hlive : id ∈ p.contexts
  · intro x
    rw [mem_registrations_iff, standing_unregister hlive, contexts_unregister hlive,
      ExtTreeMap.mem_erase]
    by_cases hid : id = x
    · simp [hid]
    · rw [if_neg hid, ← mem_registrations_iff, hp x]
      simp [hid]
  · rw [unregister_of_not_mem hlive]
    exact hp

theorem registration_unregister (hp : Registered p) (id : ContextId) :
    (p.unregister id).registrations[id]? = none := by
  by_cases hlive : id ∈ p.contexts
  · have hs := standing_unregister hlive id
    rw [if_pos rfl] at hs
    exact congrArg Standing.registration hs
  · rw [unregister_of_not_mem hlive]
    rw [← hp id] at hlive
    exact ExtTreeMap.getElem?_eq_none hlive

theorem mem_contexts_of_some {c : Context Hook} (hc : p.contexts[id]? = some c) :
    id ∈ p.contexts := by
  rw [ExtTreeMap.mem_iff_isSome_getElem?, hc]
  rfl

theorem Registered.registration (hp : Registered p) (h : id ∈ p.contexts) :
    ∃ generation, p.registrations[id]? = some generation := by
  rw [← hp id, ExtTreeMap.mem_iff_isSome_getElem?] at h
  exact Option.isSome_iff_exists.mp h

theorem registered_change (hp : Registered p) (id : ContextId)
    (f : Context Hook → Unit × Context Hook) : Registered (p.change id f).2 := by
  intro x
  rw [mem_registrations_iff, standing_change, ← mem_registrations_iff, hp x]
  cases h : p.contexts[id]? with
  | none => rw [change_of_none h]
  | some c =>
    rw [change_eq h, contexts_of_registry (registry_realign _ _ _ _), ExtTreeMap.mem_insert,
      Std.compare_eq_iff_eq]
    constructor
    · exact .inr
    · rintro (rfl | hx)
      · exact mem_contexts_of_some h
      · exact hx

theorem registered_perform (hp : Registered p) (d : Deed Hook) : Registered (p.perform d) := by
  have hupshot := p.upshot d
  generalize p.perform d = q at hupshot ⊢
  cases hupshot with
  | register c => exact registered_register hp c
  | unregister _ id => exact registered_unregister hp id
  | change _ id f _ => exact registered_change hp id _
  | enroll => exact hp
  | withdraw => exact hp
  | store => exact hp
  | aside _ _ alike =>
    intro id
    rw [alike.registrations, alike.contexts]
    exact hp id

theorem Registered.after (hp : Registered p) (deeds : List (Deed Hook)) :
    Registered (p.after deeds) :=
  after_invariant Registered (fun _ d hq => registered_perform hq d) hp deeds

theorem registered_empty : Registered (empty : Presence Hook) := by
  intro id
  simp [empty]

/-- Whatever registration the id has is later than the generation. -/
def Renewed (generation : Nat) (id : ContextId) (p : Presence Hook) : Prop :=
  generation ≤ p.lastGeneration ∧ ∀ g, p.registrations[id]? = some g → generation < g

theorem renewed_perform {generation : Nat} (hp : p.Renewed generation id) (d : Deed Hook) :
    (p.perform d).Renewed generation id := by
  refine ⟨Nat.le_trans hp.1 (p.lastGeneration_perform d), fun g h => ?_⟩
  rcases p.registration_perform id d with hsame | ⟨hfresh, _⟩ | ⟨hnone, _⟩
  · exact hp.2 g (hsame.symm.trans h)
  · obtain rfl := Option.some.inj (hfresh.symm.trans h)
    exact Nat.lt_succ_of_le hp.1
  · cases hnone.symm.trans h

theorem renewed_after {generation : Nat} (hp : p.Renewed generation id) (deeds : List (Deed Hook)) :
    (p.after deeds).Renewed generation id :=
  after_invariant (Renewed generation id) (fun _ d hq => renewed_perform hq d) hp deeds

end Presence
end SharedViews

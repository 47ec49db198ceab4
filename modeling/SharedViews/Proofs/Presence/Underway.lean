import SharedViews.Proofs.Presence.Firing

/-! Firings under way.

Between its two halves a firing is open: it will remove what it has found, unless it
sees a reason not to. `Underway` follows the open firings through a run of deeds. An
id that is live, has a client and no cleanup pending is `Secure` if no open firing of
it knows its present registration, and stays so until something releases it
(`secure_underway`). Connecting makes an id secure if there is no such firing
(`secure_connect`); one that there is will remove the id all the same
(`finishFiring_connect`), for connecting takes a pending cleanup back but leaves no
sign for a firing that has begun. -/
namespace SharedViews
open Std

/-- The deed unregisters the id, takes its client away or sets a cleanup for it. -/
def Deed.Releases {Hook : Type} (id : ContextId) : Deed Hook → Prop
  | .unregister x | .dropClient x | .schedule x _ => x = id
  | _ => False

namespace Presence
variable {Hook : Type}

/-- The deeds lead from some open firings to others: a first half that finds something
opens one, and its second half closes it. -/
inductive Underway (p : Presence Hook) (before : List (ContextId × Firing Hook)) :
    List (Deed Hook) → List (ContextId × Firing Hook) → Prop
  | rest : Underway p before [] before
  | begins {deeds : List (Deed Hook)} {opened : List (ContextId × Firing Hook)} {id : ContextId}
      {generation : Nat} {firing : Firing Hook}
      (found : ((p.after deeds).beginFiring id generation).1 = some firing) :
      Underway p before deeds opened →
      Underway p before (deeds ++ [.beginFiring id generation]) ((id, firing) :: opened)
  | misses {deeds : List (Deed Hook)} {opened : List (ContextId × Firing Hook)} {id : ContextId}
      {generation : Nat} (missed : ((p.after deeds).beginFiring id generation).1 = none) :
      Underway p before deeds opened →
      Underway p before (deeds ++ [.beginFiring id generation]) opened
  | finishes {deeds : List (Deed Hook)} {left right : List (ContextId × Firing Hook)}
      {id : ContextId} {firing : Firing Hook} :
      Underway p before deeds (left ++ (id, firing) :: right) →
      Underway p before (deeds ++ [.finishFiring id firing]) (left ++ right)
  | whole {deeds : List (Deed Hook)} {opened : List (ContextId × Firing Hook)} {d : Deed Hook}
      (whole : d.Whole) : Underway p before deeds opened → Underway p before (deeds ++ [d]) opened

variable {p q : Presence Hook} {id : ContextId} {d : Deed Hook}
  {deeds : List (Deed Hook)} {before opened : List (ContextId × Firing Hook)}

theorem after_concat (p : Presence Hook) (deeds : List (Deed Hook)) (d : Deed Hook) :
    p.after (deeds ++ [d]) = (p.after deeds).perform d := p.after_append deeds [d]

theorem Underway.append_whole (h : Underway p before deeds opened) {more : List (Deed Hook)}
    (hmore : ∀ d ∈ more, d.Whole) : Underway p before (deeds ++ more) opened := by
  induction more generalizing deeds with
  | nil =>
    rw [List.append_nil]
    exact h
  | cons d rest ih =>
    rw [List.append_cons]
    exact ih (h.whole (hmore d List.mem_cons_self)) fun x hx => hmore x (List.mem_cons_of_mem d hx)

theorem Underway.closes {firing : Firing Hook}
    (h : Underway p before deeds ((id, firing) :: opened)) :
    Underway p before (deeds ++ [.finishFiring id firing]) opened :=
  @Underway.finishes _ p before deeds [] opened id firing h

/-! ### What open firings know -/

/-- Every open firing has found a registration, one that was given already. -/
def Found (p : Presence Hook) (opened : List (ContextId × Firing Hook)) : Prop :=
  ∀ id firing, (id, firing) ∈ opened → ∃ g, firing.registration = some g ∧ g ≤ p.lastGeneration

theorem found_nil (p : Presence Hook) : Found p [] :=
  fun _ _ hmem => absurd hmem List.not_mem_nil

/-- What a firing finds is live. -/
theorem registration_of_beginFiring {generation : Nat} {firing : Firing Hook} (hp : Registered p)
    (h : (p.beginFiring id generation).1 = some firing) :
    ∃ g, firing.registration = some g ∧ p.registrations[id]? = some g := by
  unfold beginFiring at h
  split at h
  · obtain ⟨c, hc, rfl⟩ := Option.map_eq_some_iff.mp h
    obtain ⟨g, hg⟩ := hp.registration (mem_contexts_of_some hc)
    exact ⟨g, hg, hg⟩
  · cases h

theorem Found.perform (h : Found p opened) (d : Deed Hook) : Found (p.perform d) opened := by
  intro id firing hmem
  obtain ⟨g, hfound, hg⟩ := h id firing hmem
  exact ⟨g, hfound, Nat.le_trans hg (p.lastGeneration_perform d)⟩

theorem found_underway (hp : Registered p) (hdated : Dated p) (hbefore : Found p before)
    (h : Underway p before deeds opened) : Found (p.after deeds) opened := by
  induction h with
  | rest => exact hbefore
  | @begins deeds opened x generation firing found _ ih =>
    rw [after_concat]
    intro id firing' hmem
    rcases List.mem_cons.mp hmem with heq | hold
    · cases heq
      obtain ⟨g, hfound, hg⟩ := registration_of_beginFiring (hp.after deeds) found
      have hle := hdated.after deeds _ g hg
      exact ⟨g, hfound, Nat.le_trans hle (lastGeneration_perform _ _)⟩
    · exact ih.perform _ id firing' hold
  | misses _ _ ih =>
    rw [after_concat]
    exact ih.perform _
  | finishes _ ih =>
    rw [after_concat]
    intro id firing hmem
    refine ih.perform _ id firing ?_
    rcases List.mem_append.mp hmem with hleft | hright
    · exact List.mem_append_left _ hleft
    · exact List.mem_append_right _ (List.mem_cons_of_mem _ hright)
  | whole _ _ ih =>
    rw [after_concat]
    exact ih.perform _

/-! ### Secure ids -/

/-- The id is live, has a client and no cleanup pending, and no open firing of it knows
its registration. -/
structure Secure (p : Presence Hook) (id : ContextId)
    (opened : List (ContextId × Firing Hook)) : Prop where
  registered : p.registrations[id]?.isSome = true
  connected : p.clients[id]?.isSome = true
  idle : p.pending[id]? = none
  outdated : ∀ firing, (id, firing) ∈ opened → ∃ g, firing.registration = some g ∧
    g ≤ p.lastGeneration ∧ p.registrations[id]? ≠ some g

theorem Secure.subset {fewer : List (ContextId × Firing Hook)} (h : Secure p id opened)
    (hsub : fewer ⊆ opened) : Secure p id fewer :=
  ⟨h.registered, h.connected, h.idle, fun firing hmem => h.outdated firing (hsub hmem)⟩

theorem Secure.perform (h : Secure p id opened) (hd : ¬ d.Releases id)
    (hfinish : ∀ firing, d = .finishFiring id firing → (id, firing) ∈ opened) :
    Secure (p.perform d) id opened := by
  have hkept : ¬ p.Removes id d := by
    rintro (rfl | ⟨firing, rfl, hsame, _⟩)
    · exact hd rfl
    · obtain ⟨g, hfound, _, hne⟩ := h.outdated firing (hfinish firing rfl)
      exact hne (hsame.trans hfound)
  have hstays : (p.perform d).clients[id]?.isSome = true ∧ (p.perform d).pending[id]? = none := by
    have hclient : ∀ {s}, (p.perform d).standing id = s → (p.perform d).clients[id]? = s.client :=
      fun hs => congrArg Standing.client hs
    have hpending : ∀ {s}, (p.perform d).standing id = s → (p.perform d).pending[id]? = s.pending :=
      fun hs => congrArg Standing.pending hs
    cases p.fate id d with
    | keep _ hs => exact ⟨hclient hs ▸ h.connected, hpending hs ▸ h.idle⟩
    | register c _ hs => exact ⟨hclient hs ▸ h.connected, hpending hs⟩
    | remove _ removes => exact absurd removes hkept
    | schedule => exact absurd rfl hd
    | stop _ _ hs => exact ⟨hclient hs ▸ h.connected, hpending hs⟩
    | addClient client _ hs => exact ⟨hclient hs ▸ rfl, hpending hs ▸ h.idle⟩
    | dropClient => exact absurd rfl hd
  have hlast := p.lastGeneration_perform d
  rcases p.registration_perform id d with hsame | ⟨hfresh, _⟩ | ⟨_, hremoves⟩
  · refine ⟨hsame ▸ h.registered, hstays.1, hstays.2, fun firing hmem => ?_⟩
    obtain ⟨g, hfound, hg, hne⟩ := h.outdated firing hmem
    exact ⟨g, hfound, Nat.le_trans hg hlast, hsame ▸ hne⟩
  · refine ⟨hfresh ▸ rfl, hstays.1, hstays.2, fun firing hmem => ?_⟩
    obtain ⟨g, hfound, hg, _⟩ := h.outdated firing hmem
    refine ⟨g, hfound, Nat.le_trans hg hlast, fun hsame => ?_⟩
    obtain rfl := Option.some.inj (hfresh.symm.trans hsame)
    exact absurd hg (Nat.not_succ_le_self _)
  · exact absurd hremoves hkept

theorem secure_underway (h : Secure p id before) (hrun : Underway p before deeds opened)
    (hd : ∀ d ∈ deeds, ¬ d.Releases id) : Secure (p.after deeds) id opened := by
  have hlast : ∀ {deeds : List (Deed Hook)} {d}, (∀ x ∈ deeds ++ [d], ¬ x.Releases id) →
      (∀ x ∈ deeds, ¬ x.Releases id) ∧ ¬ d.Releases id := by
    intro deeds d hall
    exact ⟨fun x hx => hall x (List.mem_append_left _ hx), hall d (by simp)⟩
  induction hrun with
  | rest => exact h
  | begins found _ ih =>
    obtain ⟨hbefore, hd⟩ := hlast hd
    have hsecure := ih hbefore
    rw [after_concat]
    have hnext := hsecure.perform hd nofun
    refine ⟨hnext.registered, hnext.connected, hnext.idle, fun firing' hmem => ?_⟩
    rcases List.mem_cons.mp hmem with heq | hold
    · -- With no cleanup pending, no firing of the id begins.
      cases heq
      rw [beginFiring_of_ne (by rw [hsecure.idle]; nofun)] at found
      cases found
    · exact hnext.outdated firing' hold
  | misses _ _ ih =>
    obtain ⟨hbefore, hd⟩ := hlast hd
    rw [after_concat]
    exact (ih hbefore).perform hd nofun
  | finishes _ ih =>
    obtain ⟨hbefore, hd⟩ := hlast hd
    rw [after_concat]
    refine ((ih hbefore).perform hd fun firing' heq => ?_).subset ?_
    · cases heq
      exact List.mem_append_right _ List.mem_cons_self
    · exact (List.sublist_cons_self _ _).append_left _ |>.subset
  | whole hwhole _ ih =>
    obtain ⟨hbefore, hd⟩ := hlast hd
    rw [after_concat]
    refine (ih hbefore).perform hd fun firing' heq => ?_
    subst heq
    exact hwhole.elim

/-! ### Connecting -/

theorem standing_connect (p : Presence Hook) (client : Client) :
    ((p.cancel client.id).addClient client).standing client.id =
      ⟨p.registrations[client.id]?, none, some client⟩ := by
  rw [standing_addClient, if_pos rfl, standing_cancel, if_pos rfl]
  rfl

theorem secure_connect (hp : Registered p) (hfound : Found p opened) {client : Client}
    (hlive : client.id ∈ p.contexts) (hopen : ∀ firing, (client.id, firing) ∈ opened →
      firing.registration ≠ p.registrations[client.id]?) :
    Secure ((p.cancel client.id).addClient client) client.id opened := by
  have hs := p.standing_connect client
  have hregistration : ((p.cancel client.id).addClient client).registrations[client.id]? =
      p.registrations[client.id]? := congrArg Standing.registration hs
  refine ⟨?_, ?_, congrArg Standing.pending hs, fun firing hmem => ?_⟩
  · rw [hregistration, ← ExtTreeMap.mem_iff_isSome_getElem?, hp]
    exact hlive
  · rw [show ((p.cancel client.id).addClient client).clients[client.id]? = some client from
      congrArg Standing.client hs]
    rfl
  · obtain ⟨g, hg, hle⟩ := hfound client.id firing hmem
    refine ⟨g, hg, Nat.le_trans hle (p.lastGeneration_perform (.cancel client.id)), ?_⟩
    rw [hregistration, ← hg]
    exact (hopen firing hmem).symm

theorem Secure.live (h : Secure p id opened) (hp : Registered p) :
    id ∈ p.contexts ∧ id ∈ p.clients := by
  rw [← hp id, ExtTreeMap.mem_iff_isSome_getElem?, ExtTreeMap.mem_iff_isSome_getElem?]
  exact ⟨h.registered, h.connected⟩

theorem live_connect (hp : Registered p) (hfound : Found p opened) {client : Client}
    (hlive : client.id ∈ p.contexts) (hopen : ∀ firing, (client.id, firing) ∈ opened →
      firing.registration ≠ p.registrations[client.id]?)
    {opened' : List (ContextId × Firing Hook)}
    (hrun : Underway ((p.cancel client.id).addClient client) opened deeds opened')
    (hd : ∀ d ∈ deeds, ¬ d.Releases client.id) :
    client.id ∈ (((p.cancel client.id).addClient client).after deeds).contexts ∧
      client.id ∈ (((p.cancel client.id).addClient client).after deeds).clients := by
  have hconnected : Registered ((p.cancel client.id).addClient client) :=
    registered_perform (registered_perform hp (.cancel client.id)) (.addClient client)
  have hsecure := secure_underway (secure_connect hp hfound hlive hopen) hrun hd
  exact hsecure.live (hconnected.after deeds)

/-- A firing that has found the present registration removes the id although its
client has connected. -/
theorem finishFiring_connect (client : Client) (hlive : client.id ∈ p.contexts)
    {firing : Firing Hook} (hfound : firing.registration = p.registrations[client.id]?) :
    let q := ((p.cancel client.id).addClient client).finishFiring client.id firing
    client.id ∉ q.contexts ∧ client.id ∉ q.clients := by
  intro q
  have hs := p.standing_connect client
  have hlive' : client.id ∈ ((p.cancel client.id).addClient client).contexts := by
    show client.id ∈ (p.cancel client.id).contexts
    rwa [(p.alike_cancel client.id).contexts]
  have hq : q = ((p.cancel client.id).addClient client).unregister client.id :=
    finishFiring_of_eq ((congrArg Standing.registration hs).trans hfound.symm)
      (not_isPending_iff.mpr (congrArg Standing.pending hs))
  have hgone := standing_unregister hlive' client.id
  rw [if_pos rfl, ← hq] at hgone
  constructor
  · rw [hq, contexts_unregister hlive']
    simp
  · rw [ExtTreeMap.mem_iff_isSome_getElem?, show q.clients[client.id]? = none from
      congrArg Standing.client hgone]
    nofun

end Presence
end SharedViews

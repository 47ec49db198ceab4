import SharedViews.Proofs.Presence.Standing

/-! The two halves of a firing.

The first half finds what is live under the id, and its registration. Whatever is
done before the second half, the second half removes what is live then or does
nothing (`finishFiring_cases`). It does nothing once the id was registered anew or
unregistered, since the registration found can not come back
(`finishFiring_of_settled`), nor while a new cleanup is pending; else what was found
is live still, and is removed (`finishFiring_of_unsettled`). -/
namespace SharedViews
open Std

/-- The deed is neither half of a firing. -/
def Deed.Whole {Hook : Type} : Deed Hook → Prop
  | .beginFiring _ _ | .finishFiring _ _ => False
  | _ => True

/-- The deed registers the id, or unregisters it on request. -/
def Deed.Settles {Hook : Type} (id : ContextId) : Deed Hook → Prop
  | .register c => c.id = id
  | .unregister x => x = id
  | _ => False

namespace Presence
variable {Hook : Type} {p : Presence Hook} {id : ContextId} {firing : Firing Hook}
  {during : List (Deed Hook)} {registration : Nat}

theorem beginFiring_eq {generation : Nat} {c : Context Hook}
    (hpending : p.pending[id]? = some generation) (hc : p.contexts[id]? = some c) :
    p.beginFiring id generation = (some ⟨c, p.registrations[id]?⟩, p.cancel id) := by
  unfold beginFiring
  rw [if_pos hpending, hc]
  rfl

theorem beginFiring_of_ne {generation : Nat} (h : p.pending[id]? ≠ some generation) :
    p.beginFiring id generation = (none, p) := by
  unfold beginFiring
  rw [if_neg h]

theorem finishFiring_cases (p : Presence Hook) (id : ContextId) (firing : Firing Hook) :
    p.finishFiring id firing = p ∨ p.finishFiring id firing = p.unregister id := by
  unfold finishFiring
  split
  · exact .inr rfl
  · exact .inl rfl

theorem finishFiring_of_pending (h : p.isPending id = true) (firing : Firing Hook) :
    p.finishFiring id firing = p := by
  unfold finishFiring
  rw [if_neg fun hboth => hboth.2 h]

theorem finishFiring_of_ne (h : p.registrations[id]? ≠ firing.registration) :
    p.finishFiring id firing = p := by
  unfold finishFiring
  rw [if_neg fun hboth => h hboth.1]

theorem finishFiring_of_eq (h : p.registrations[id]? = firing.registration)
    (hpending : ¬ p.isPending id = true) : p.finishFiring id firing = p.unregister id := by
  unfold finishFiring
  rw [if_pos ⟨h, hpending⟩]

/-! ### In between -/

theorem renewed_of_settles (hp : Registered p) {generation : Nat}
    (hgeneration : generation ≤ p.lastGeneration) {d : Deed Hook} (hd : d.Settles id) :
    (p.perform d).Renewed generation id := by
  refine ⟨Nat.le_trans hgeneration (p.lastGeneration_perform d), fun g h => ?_⟩
  cases d with
  | register c =>
    have hid : c.id = id := hd
    have hs := p.standing_register c id
    rw [if_pos hid] at hs
    obtain rfl := Option.some.inj ((congrArg Standing.registration hs).symm.trans h)
    exact Nat.lt_succ_of_le hgeneration
  | unregister x =>
    obtain rfl : x = id := hd
    cases (registration_unregister hp x).symm.trans h
  | _ => exact hd.elim

theorem finishFiring_of_settled (hp : Registered p)
    (hfound : firing.registration = some registration)
    (hregistration : registration ≤ p.lastGeneration) (hd : ∃ d ∈ during, d.Settles id) :
    (p.after during).finishFiring id firing = p.after during := by
  obtain ⟨d, hmem, hd⟩ := hd
  obtain ⟨before, rest, rfl⟩ := List.append_of_mem hmem
  have hle := Nat.le_trans hregistration (p.lastGeneration_after before)
  have hrenewed := renewed_after (renewed_of_settles (hp.after before) hle hd) rest
  rw [after_append]
  refine finishFiring_of_ne fun hsame => ?_
  have hlt := hrenewed.2 registration (hsame.trans hfound)
  exact absurd hlt (Nat.lt_irrefl registration)

theorem finishFiring_of_unsettled (hp : Registered p) (hlive : id ∈ p.contexts)
    (hfound : firing.registration = p.registrations[id]?)
    (hd : ∀ d ∈ during, ¬ d.Settles id ∧ ∀ f, d ≠ .finishFiring id f)
    (hpending : ¬ (p.after during).isPending id = true) :
    id ∈ (p.after during).contexts ∧
      (p.after during).finishFiring id firing = (p.after during).unregister id := by
  -- The registration found lasts, and with it the context.
  have hkept : Registered (p.after during) ∧
      (p.after during).registrations[id]? = p.registrations[id]? := by
    refine after_induction (fun q => Registered q ∧ q.registrations[id]? = p.registrations[id]?)
      (fun d => ¬ d.Settles id ∧ ∀ f, d ≠ .finishFiring id f) ?_ ⟨hp, rfl⟩ hd
    rintro q d ⟨hq, hsame⟩ ⟨hsettles, hfinish⟩
    refine ⟨registered_perform hq d, ?_⟩
    rcases q.registration_perform id d with hkeep | ⟨_, c, rfl, hid⟩ | ⟨_, rfl | ⟨f, rfl, _⟩⟩
    · exact hkeep.trans hsame
    · exact absurd hid hsettles
    · exact absurd rfl hsettles
    · exact absurd rfl (hfinish f)
  refine ⟨?_, finishFiring_of_eq (hkept.2.trans hfound.symm) hpending⟩
  rw [← hkept.1 id, ExtTreeMap.mem_iff_isSome_getElem?, hkept.2,
    ← ExtTreeMap.mem_iff_isSome_getElem?, hp id]
  exact hlive

/-- Once a firing has found a live context, its second half does nothing if the id was
settled meanwhile or has a new cleanup pending, and removes the context else. -/
theorem finishFiring_after (hp : Registered p) (hdated : Dated p) {c : Context Hook}
    (hc : p.contexts[id]? = some c) (during : List (Deed Hook)) :
    let now := (p.cancel id).after during
    let found : Firing Hook := ⟨c, p.registrations[id]?⟩
    ((∃ d ∈ during, d.Settles id) ∨ now.isPending id = true → now.finishFiring id found = now) ∧
    ((∀ d ∈ during, ¬ d.Settles id ∧ ∀ f, d ≠ .finishFiring id f) →
      ¬ now.isPending id = true →
        id ∈ now.contexts ∧ now.finishFiring id found = now.unregister id) := by
  intro now found
  have hbegun : Registered (p.cancel id) := registered_perform hp (.cancel id)
  have halike := p.alike_cancel id
  have hlive := mem_contexts_of_some hc
  obtain ⟨registration, hfound⟩ := hp.registration hlive
  have hregistration : registration ≤ (p.cancel id).lastGeneration :=
    Nat.le_trans (hdated id registration hfound) (p.lastGeneration_perform (.cancel id))
  constructor
  · rintro (hsettled | hagain)
    · exact finishFiring_of_settled hbegun hfound hregistration hsettled
    · exact finishFiring_of_pending hagain found
  · intro hd hnot
    have hlive' : id ∈ (p.cancel id).contexts := by rwa [halike.contexts]
    have hsame : found.registration = (p.cancel id).registrations[id]? := by
      rw [halike.registrations]
    exact finishFiring_of_unsettled hbegun hlive' hsame hd hnot

/-! ### The order of hooks -/

/-- Deeds that change contexts by their setters, other than registering the id, keep
its hooks where they are and add new ones after them. -/
theorem hooks_perform {d : Deed Hook} (hd : d.BySetters)
    (hregister : ∀ c, d = .register c → c.id ≠ id) {c' : Context Hook}
    (h : (p.perform d).contexts[id]? = some c') :
    ∃ c, p.contexts[id]? = some c ∧ c.hooks <+: c'.hooks := by
  have hsame : ∀ {c : Context Hook}, p.contexts[id]? = some c →
      ∃ c', p.contexts[id]? = some c' ∧ c'.hooks <+: c.hooks :=
    fun hc => ⟨_, hc, List.prefix_refl _⟩
  have hupshot := p.upshot d
  generalize p.perform d = q at hupshot h
  cases hupshot with
  | register c =>
    rw [contexts_register, ExtTreeMap.getElem?_insert,
      if_neg (by simpa using hregister c rfl)] at h
    exact hsame h
  | unregister _ x =>
    by_cases hlive : x ∈ p.contexts
    · rw [contexts_unregister hlive, ExtTreeMap.getElem?_erase] at h
      split at h
      · cases h
      · exact hsame h
    · rw [unregister_of_not_mem hlive] at h
      exact hsame h
  | change _ x f source =>
    cases hx : p.contexts[x]? with
    | none =>
      rw [change_of_none hx] at h
      exact hsame h
    | some c =>
      rw [change_eq hx, contexts_of_registry (registry_realign _ _ _ _),
        ExtTreeMap.getElem?_insert] at h
      split at h
      next hid =>
        obtain rfl := Std.compare_eq_iff_eq.mp hid
        obtain rfl := Option.some.inj h
        refine ⟨c, hx, ?_⟩
        rcases source with rfl | ⟨e, he⟩
        · obtain ⟨setters, hsetters⟩ := hd c
          show c.hooks <+: (f c).hooks
          rw [hsetters, Setter.hooks_applyAll]
          exact List.prefix_append _ _
        · have hkept : (f c).hooks = c.hooks := by rw [he, Edit.hooks_apply]
          exact hkept ▸ List.prefix_refl _
      next => exact hsame h
  | enroll => exact hsame h
  | withdraw => exact hsame h
  | store => exact hsame h
  | aside _ _ alike =>
    rw [alike.contexts] at h
    exact hsame h

theorem hooks_after {deeds : List (Deed Hook)}
    (hd : ∀ d ∈ deeds, d.BySetters ∧ ∀ c, d = .register c → c.id ≠ id) {c' : Context Hook}
    (h : (p.after deeds).contexts[id]? = some c') :
    ∃ c, p.contexts[id]? = some c ∧ c.hooks <+: c'.hooks := by
  induction deeds generalizing p with
  | nil => exact ⟨c', h, List.prefix_refl _⟩
  | cons d rest ih =>
    obtain ⟨c₁, hc₁, hlater⟩ := ih (fun x hx => hd x (List.mem_cons_of_mem d hx)) h
    obtain ⟨hsetters, hregister⟩ := hd d List.mem_cons_self
    obtain ⟨c, hc, hnow⟩ := hooks_perform hsetters hregister hc₁
    exact ⟨c, hc, hnow.trans hlater⟩

end Presence
end SharedViews

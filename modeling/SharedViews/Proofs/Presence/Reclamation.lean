import SharedViews.Proofs.Presence.Deeds

/-! What is stored under a scope goes with its last member, and only then.

`Reclaims` compares what is stored before and after: nothing under a scope that was
emptied in between, and the same as before under every other scope. Leaving a scope
does this by what `leave` answers, and so does removing a context from all its
scopes. Realigning does it because it joins first: no scope that the context keeps
or gains is without a member while the others are left. -/
namespace SharedViews
open Std

theorem ScopeTable.bucket_dropScopes {V : Type} (s : ScopeTable V) (own : List Scope)
    (scope : Scope) :
    (own.foldl dropScope s).bucket scope = if scope ∈ own then ∅ else s.bucket scope := by
  induction own generalizing s with
  | nil => simp
  | cons head rest ih =>
    rw [List.foldl_cons, ih, bucket_dropScope]
    by_cases hrest : scope ∈ rest
    · simp [hrest]
    · by_cases hhead : head = scope
      · simp [hhead]
      · have hscope : scope ≠ head := fun h => hhead h.symm
        simp [hrest, hhead, hscope]

namespace Presence
variable {Hook : Type} {p q r : Presence Hook}

/-- The scope had a member and has none any more. -/
def Emptied (p q : Presence Hook) (scope : Scope) : Prop :=
  p.scopes.Occupied scope ∧ ¬ q.scopes.Occupied scope

/-- The signals and the actions stored under a scope. -/
def stored (p : Presence Hook) (scope : Scope) :
    ExtTreeMap String Json × ExtTreeMap String String :=
  (p.signals.bucket scope, p.actions.bucket scope)

/-- Precisely what was stored under emptied scopes is gone. -/
structure Reclaims (p q : Presence Hook) : Prop where
  emptied : ∀ scope, Emptied p q scope → q.stored scope = (∅, ∅)
  others : ∀ scope, ¬ Emptied p q scope → q.stored scope = p.stored scope

/-- No scope loses its last member, and the stores are left alone. -/
theorem Reclaims.of_kept (hstored : ∀ scope, q.stored scope = p.stored scope)
    (hkept : ∀ scope, p.scopes.Occupied scope → q.scopes.Occupied scope) : Reclaims p q where
  emptied scope h := absurd (hkept scope h.1) h.2
  others scope _ := hstored scope

theorem Reclaims.refl (p : Presence Hook) : Reclaims p p := .of_kept (fun _ => rfl) fun _ h => h

/-- One after the other, unless a scope that was vacant is emptied by the second, or
one that the first empties is occupied again by the second. -/
theorem Reclaims.trans (hpq : Reclaims p q) (hqr : Reclaims q r)
    (hvacant : ∀ scope, q.scopes.Occupied scope → ¬ r.scopes.Occupied scope →
      p.scopes.Occupied scope)
    (hagain : ∀ scope, p.scopes.Occupied scope → r.scopes.Occupied scope →
      q.scopes.Occupied scope) : Reclaims p r := by
  refine ⟨?_, ?_⟩
  · intro scope h
    obtain ⟨hp, hr⟩ := h
    by_cases hq : q.scopes.Occupied scope
    · exact hqr.emptied scope ⟨hq, hr⟩
    · -- Vacant already in between, so the second leaves alone what the first cleared.
      rw [hqr.others scope fun h => hq h.1]
      exact hpq.emptied scope ⟨hp, hq⟩
  · intro scope h
    have hsecond : ¬ Emptied q r scope := fun hqr => h ⟨hvacant scope hqr.1 hqr.2, hqr.2⟩
    have hfirst : ¬ Emptied p q scope := by
      intro hfirst
      obtain ⟨hp, hq⟩ := hfirst
      by_cases hr : r.scopes.Occupied scope
      · exact hq (hagain scope hp hr)
      · exact h ⟨hp, hr⟩
    rw [hqr.others scope hsecond, hpq.others scope hfirst]

/-! ### Leaving -/

/-- Where only one context loses scopes, those emptied are among its own. -/
theorem emptied_iff {id : ContextId}
    (h : ∀ x scope, id ≠ x → p.scopes.Belongs x scope → q.scopes.Belongs x scope) (scope : Scope) :
    Emptied p q scope ↔ p.scopes.Belongs id scope ∧ ¬ q.scopes.Occupied scope := by
  constructor
  · intro hemptied
    obtain ⟨⟨x, hx⟩, hvacant⟩ := hemptied
    by_cases hid : id = x
    · subst hid
      exact ⟨hx, hvacant⟩
    · exact absurd ⟨x, h x scope hid hx⟩ hvacant
  · intro hown
    exact ⟨⟨id, hown.1⟩, hown.2⟩

theorem stored_reclaim (p : Presence Hook) (scope other : Scope) :
    (p.reclaim scope).stored other = if scope = other then (∅, ∅) else p.stored other := by
  unfold stored reclaim
  rw [ScopeTable.bucket_dropScope, ScopeTable.bucket_dropScope]
  split <;> rfl

theorem stored_leave (p : Presence Hook) (id : ContextId) (scope other : Scope) :
    (leave id p scope).stored other =
      if (p.scopes.leave scope id).1 = true ∧ scope = other then (∅, ∅) else p.stored other := by
  rw [leave_eq]
  by_cases h : (p.scopes.leave scope id).1 = true
  · rw [if_pos h, stored_reclaim]
    simp only [h, true_and]
    rfl
  · rw [if_neg h, if_neg fun hboth => h hboth.1]
    rfl

theorem reclaims_leave (hp : p.scopes.Sound) (id : ContextId) (scope : Scope) :
    Reclaims p (leave id p scope) := by
  have hbelongs := p.scopes.belongs_leave scope
  have hemptied : ∀ other, Emptied p (leave id p scope) other ↔
      p.scopes.Belongs id other ∧ ¬ (leave id p scope).scopes.Occupied other := by
    refine emptied_iff fun x other hid hx => ?_
    rw [scopes_leave]
    exact (hbelongs other id x).mpr ⟨fun h => hid h.2, hx⟩
  have hself : ∀ other, Emptied p (leave id p scope) other → scope = other := by
    intro other h
    obtain ⟨hid, hvacant⟩ := (hemptied other).mp h
    by_cases hne : scope = other
    · exact hne
    · refine absurd ⟨id, ?_⟩ hvacant
      rw [scopes_leave]
      exact (hbelongs other id id).mpr ⟨fun h => hne h.1, hid⟩
  have hanswer : (p.scopes.leave scope id).1 = true ↔ Emptied p (leave id p scope) scope := by
    rw [hp.leave_emptied, hemptied, scopes_leave]
  refine ⟨?_, ?_⟩
  · intro other h
    obtain rfl := hself other h
    rw [stored_leave, if_pos ⟨hanswer.mpr h, rfl⟩]
  · intro other h
    rw [stored_leave, if_neg]
    intro hdropped
    obtain ⟨hleft, hsame⟩ := hdropped
    subst hsame
    exact h (hanswer.mp hleft)

theorem reclaims_leaves (hp : p.scopes.Sound) (id : ContextId) (own : List Scope) :
    Reclaims p (own.foldl (leave id) p) := by
  induction own generalizing p with
  | nil => exact .refl p
  | cons scope rest ih =>
    have hnext : (leave id p scope).scopes.Sound := by
      rw [scopes_leave]
      exact hp.leave scope id
    refine (reclaims_leave hp id scope).trans (ih hnext) ?_ ?_
    · intro other hoccupied _
      obtain ⟨x, hx⟩ := hoccupied
      rw [scopes_leave] at hx
      exact ⟨x, ((p.scopes.belongs_leave scope other id x).mp hx).2⟩
    · intro other _ hoccupied
      obtain ⟨x, hx⟩ := hoccupied
      exact ⟨x, ((belongs_leaves _ id x rest other).mp hx).2⟩

/-! ### The operations -/

theorem reclaims_realign (hp : p.scopes.Sound) (id : ContextId)
    (before after : ExtTreeSet Scope) : Reclaims p (p.realign id before after) := by
  have hgrown : ∀ scope, p.scopes.Occupied scope →
      ((lacking after before).foldl (join id) p).scopes.Occupied scope := by
    intro scope hoccupied
    obtain ⟨x, hx⟩ := hoccupied
    exact ⟨x, (p.belongs_joins id x _ scope).mpr (.inr hx)⟩
  have hjoined : Reclaims p ((lacking after before).foldl (join id) p) := by
    refine .of_kept (fun scope => ?_) hgrown
    rw [joins_eq]
    rfl
  refine hjoined.trans (reclaims_leaves (sound_joins hp id _) id (lacking before after)) ?_ ?_
  · intro scope hoccupied hvacant
    obtain ⟨x, hx⟩ := hoccupied
    rcases (p.belongs_joins id x _ scope).mp hx with ⟨hgained, _, rfl⟩ | hold
    · -- A scope that is gained is not among those that are left.
      refine absurd ⟨id, (belongs_leaves _ id id _ scope).mpr ⟨?_, hx⟩⟩ hvacant
      intro hlost
      have hgained := (mem_lacking after before scope).mp hgained
      exact hgained.2 ((mem_lacking before after scope).mp hlost.1).1
    · exact ⟨x, hold⟩
  · intro scope hoccupied _
    exact hgrown scope hoccupied

theorem Reclaims.of_alike (h : Reclaims q r) (hscopes : q.scopes = p.scopes)
    (hsignals : q.signals = p.signals) (hactions : q.actions = p.actions) : Reclaims p r := by
  have hemptied : ∀ scope, Emptied p r scope ↔ Emptied q r scope := by
    intro scope
    unfold Emptied
    rw [hscopes]
  refine ⟨fun scope he => h.emptied scope ((hemptied scope).mp he), fun scope he => ?_⟩
  rw [h.others scope fun hq => he ((hemptied scope).mpr hq)]
  unfold stored
  rw [hsignals, hactions]

theorem reclaims_register (hp : p.scopes.Sound) (c : Context Hook) :
    Reclaims p (p.register c) := by
  have halike := p.alike_cancel c.id
  have hscopes : (p.recorded c).scopes = p.scopes := halike.scopes
  rw [register_eq]
  have h := reclaims_realign (hscopes ▸ hp) c.id (p.scopesOf c.id) c.scopes
  exact h.of_alike hscopes halike.signals halike.actions

theorem reclaims_unregister (hp : p.scopes.Sound) (id : ContextId) :
    Reclaims p (p.unregister id) := by
  by_cases hid : id ∈ p.contexts
  · have hscopes := scopes_unregister hid
    have hemptied : ∀ scope, Emptied p (p.unregister id) scope ↔
        scope ∈ (p.scopes.removeAll id).1 := by
      intro scope
      rw [hp.removeAll_emptied, ← hscopes]
      refine emptied_iff (fun x scope hne hx => ?_) scope
      rw [hscopes]
      exact (hp.belongs_removeAll id x scope).mpr ⟨hne, hx⟩
    have hstored : ∀ scope, (p.unregister id).stored scope =
        if scope ∈ (p.scopes.removeAll id).1 then (∅, ∅) else p.stored scope := by
      intro scope
      unfold stored
      rw [unregister_eq hid]
      unfold dismiss
      rw [(alike_cancel _ id).signals, (alike_cancel _ id).actions]
      dsimp only
      rw [ScopeTable.bucket_dropScopes, ScopeTable.bucket_dropScopes]
      split <;> rfl
    refine ⟨fun scope he => ?_, fun scope he => ?_⟩
    · rw [hstored, if_pos ((hemptied scope).mp he)]
    · rw [hstored, if_neg fun h => he ((hemptied scope).mpr h)]
  · rw [unregister_of_not_mem hid]
    exact .refl p

theorem reclaims_change {α : Type} (hp : p.scopes.Sound) (id : ContextId)
    (f : Context Hook → α × Context Hook) : Reclaims p (p.change id f).2 := by
  cases hc : p.contexts[id]? with
  | none =>
    rw [change_of_none hc]
    exact .refl p
  | some c =>
    rw [change_eq hc]
    refine Reclaims.of_alike (reclaims_realign ?_ id c.scopes (f c).2.scopes) rfl rfl rfl
    exact hp

theorem reclaims_finishFiring (hp : p.scopes.Sound) (id : ContextId) (firing : Firing Hook) :
    Reclaims p (p.finishFiring id firing) := by
  unfold finishFiring
  split
  · exact reclaims_unregister hp id
  · exact .refl p

/-! ### Whole runs -/

/-- Whatever is stored is stored under a scope with a member. -/
def Housed (p : Presence Hook) : Prop :=
  ∀ scope key, p.signals.get? scope key ≠ none ∨ p.actions.get? scope key ≠ none →
    p.scopes.Occupied scope

theorem Reclaims.housed (h : Reclaims p q) (hp : Housed p) : Housed q := by
  intro scope key hkey
  unfold ScopeTable.get? at hkey
  by_cases he : Emptied p q scope
  · have hsignals : q.signals.bucket scope = ∅ := congrArg Prod.fst (h.emptied scope he)
    have hactions : q.actions.bucket scope = ∅ := congrArg Prod.snd (h.emptied scope he)
    rw [hsignals, hactions] at hkey
    simp at hkey
  · have hsignals : q.signals.bucket scope = p.signals.bucket scope :=
      congrArg Prod.fst (h.others scope he)
    have hactions : q.actions.bucket scope = p.actions.bucket scope :=
      congrArg Prod.snd (h.others scope he)
    rw [hsignals, hactions] at hkey
    by_cases hq : q.scopes.Occupied scope
    · exact hq
    · exact absurd ⟨hp scope key hkey, hq⟩ he

theorem housed_perform (hp : p.scopes.Sound) (h : Housed p) {d : Deed Hook} (hm : d.Managed)
    (ht : ∀ scope, d.target? = some scope → p.scopes.Occupied scope) :
    Housed (p.perform d) := by
  have hupshot := p.upshot d
  generalize p.perform d = q at hupshot ⊢
  cases hupshot with
  | register c => exact (reclaims_register hp c).housed h
  | unregister _ id => exact (reclaims_unregister hp id).housed h
  | change _ id f _ => exact (reclaims_change hp id _).housed h
  | enroll scope id => exact hm.elim
  | withdraw scope id => exact hm.elim
  | store _ signals actions oldSignals oldActions =>
    intro scope key hkey
    by_cases htarget : d.target? = some scope
    · exact ht scope htarget
    · refine h scope key ?_
      rcases hkey with hsignal | haction
      · exact .inl (oldSignals scope key htarget hsignal)
      · exact .inr (oldActions scope key htarget haction)
  | aside _ _ alike =>
    intro scope key hkey
    rw [alike.signals, alike.actions] at hkey
    rw [alike.scopes]
    exact h scope key hkey

/-- A run that leaves membership to the contexts and stores only under scopes that
have a member at that time. -/
def Tidy (p : Presence Hook) : List (Deed Hook) → Prop
  | [] => True
  | d :: rest =>
    d.Managed ∧ (∀ scope, d.target? = some scope → p.scopes.Occupied scope) ∧
      Tidy (p.perform d) rest

theorem housed_after {deeds : List (Deed Hook)} (hp : p.scopes.Sound) (h : Housed p)
    (htidy : Tidy p deeds) : Housed (p.after deeds) := by
  induction deeds generalizing p with
  | nil => exact h
  | cons d rest ih =>
    obtain ⟨hm, ht, hrest⟩ := htidy
    exact ih (sound_perform hp d) (housed_perform hp h hm ht) hrest

theorem housed_empty : Housed (empty : Presence Hook) := by
  intro scope key h
  simp [empty, ScopeTable.get?, ScopeTable.bucket, ScopeTable.empty] at h

/-- **Exact reclamation.** In every state that can be reached, whatever was done to
membership and to the stores before, each operation on a context drops precisely what
is stored under the scopes that it empties. So in a tidy run nothing is ever stored
under a scope without a member. -/
theorem exact_reclamation :
    (∀ (deeds : List (Deed Hook)) p, p = (empty : Presence Hook).after deeds →
      (∀ c, Reclaims p (p.register c)) ∧
      (∀ id, Reclaims p (p.unregister id)) ∧
      (∀ (α : Type) id (f : Context Hook → α × Context Hook), Reclaims p (p.change id f).2) ∧
      (∀ id route, Reclaims p (p.navigate id route).2) ∧
      (∀ id scope, Reclaims p (p.joinCustom id scope).2) ∧
      (∀ id scope, Reclaims p (p.leaveCustom id scope).2) ∧
      ∀ id firing, Reclaims p (p.finishFiring id firing)) ∧
    ∀ deeds : List (Deed Hook), Tidy empty deeds → ∀ scope key,
      (empty.after deeds).signals.get? scope key ≠ none ∨
        (empty.after deeds).actions.get? scope key ≠ none →
      (empty.after deeds).scopes.Occupied scope := by
  refine ⟨?_, fun deeds htidy => housed_after Membership.sound_empty housed_empty htidy⟩
  intro deeds p hrun
  have hp := sound_after deeds
  rw [← hrun] at hp
  refine ⟨?_, ?_, ?_, ?_, ?_, ?_, ?_⟩
  · exact fun c => reclaims_register hp c
  · exact fun id => reclaims_unregister hp id
  · exact fun α id f => reclaims_change hp id f
  · exact fun id route => reclaims_change hp id fun c => ((), {c with route})
  · exact fun id scope => reclaims_change hp id (·.joinCustom scope)
  · exact fun id scope => reclaims_change hp id (·.leaveCustom scope)
  · exact fun id firing => reclaims_finishFiring hp id firing

/-- Two contexts in one session store something; then one of them moves on. -/
def visit : List (Deed String) :=
  [.register {id := "a", route := "/x", session := "s"},
    .register {id := "b", route := "/y", session := "s"},
    .writeSignal (.session "s") "n" .null, .addAction (.route "/x") "save" "store"]

/-- The route that was left is cleared, the session is not. -/
theorem exact_reclamation_visit :
    Tidy empty visit ∧
      (empty.after visit).signals.get? (.session "s") "n" ≠ none ∧
      (empty.after visit).scopes.Occupied (.session "s") ∧
      Emptied (empty.after visit) ((empty.after visit).navigate "a" "/y").2 (.route "/x") ∧
      ((empty.after visit).navigate "a" "/y").2.stored (.route "/x") = (∅, ∅) ∧
      ((empty.after visit).navigate "a" "/y").2.stored (.session "s") =
        (empty.after visit).stored (.session "s") := by
  have hsession : (empty.after (visit.take 2)).scopes.Occupied (.session "s") :=
    ⟨"a", rfl⟩
  have hroute : (empty.after (visit.take 3)).scopes.Occupied (.route "/x") :=
    ⟨"a", rfl⟩
  have htidy : Tidy empty visit := by
    refine ⟨trivial, nofun, trivial, nofun, trivial, ?_, trivial, ?_, trivial⟩
    · intro scope htarget
      cases htarget
      exact hsession
    · intro scope htarget
      cases htarget
      exact hroute
  have hsignal : (empty.after visit).signals.get? (.session "s") "n" ≠ none := by decide
  have hleft : (((empty.after visit).navigate "a" "/y").2.scopes.members.of (.route "/x")) = ∅ :=
    ExtTreeSet.isEmpty_iff.mp rfl
  have hemptied : Emptied (empty.after visit) ((empty.after visit).navigate "a" "/y").2
      (.route "/x") := by
    refine ⟨⟨"a", rfl⟩, ?_⟩
    intro hoccupied
    obtain ⟨x, hx⟩ := hoccupied
    unfold Membership.Belongs at hx
    rw [hleft] at hx
    simp at hx
  have hkept : ((empty.after visit).navigate "a" "/y").2.scopes.Occupied (.session "s") :=
    ⟨"a", rfl⟩
  obtain ⟨hsteps, hruns⟩ := @exact_reclamation String
  obtain ⟨_, _, _, hnavigate, _⟩ := hsteps visit _ rfl
  have hreclaims := hnavigate "a" "/y"
  exact ⟨htidy, hsignal, hruns visit htidy _ "n" (.inl hsignal), hemptied,
    hreclaims.emptied _ hemptied, hreclaims.others _ fun h => h.2 hkept⟩

end Presence
end SharedViews

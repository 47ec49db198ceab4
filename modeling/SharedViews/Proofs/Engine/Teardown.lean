import SharedViews.Proofs.Engine.Deeds
import SharedViews.Proofs.Presence.Firing

/-! Teardown, and hooks that call back.

A firing runs the hooks of what it found, each once, in the order of registration,
and shows each of them the context as it was found (`fire_eq`). The hooks may issue
any operations, on their own id too. If one of these registers the id or unregisters
it, or a new cleanup is pending in the end, the firing leaves everything as the hooks
left it; else it unregisters the id there and then. -/
namespace SharedViews
open Std

/-- The operation registers the id, or unregisters it. -/
def Operation.Settles (id : ContextId) : Operation → Prop
  | .register c => c.id = id
  | .unregister x => x = id
  | _ => False

namespace Engine

/-! ### Operations and their deeds -/

theorem whole_deeds (e : Engine) (op : Operation) : ∀ d ∈ e.deeds op, d.Whole := by
  cases op with
  | inspect method params =>
    show ∀ d ∈ inspectionDeeds method params, d.Whole
    unfold inspectionDeeds
    split <;> simp [Deed.Whole]
  | _ => simp [deeds, Deed.Whole]

theorem settles_deeds (e : Engine) (op : Operation) (id : ContextId) :
    (∃ d ∈ e.deeds op, d.Settles id) ↔ op.Settles id := by
  cases op with
  | inspect method params =>
    show (∃ d ∈ inspectionDeeds method params, d.Settles id) ↔ _
    unfold inspectionDeeds
    split <;> simp [Deed.Settles, Operation.Settles]
  | _ => simp [deeds, Deed.Settles, Operation.Settles]

theorem fire_eq {e : Engine} {id : ContextId} {generation : Nat} {c : LiveContext}
    (hpending : e.presence.pending[id]? = some generation)
    (hc : e.presence.contexts[id]? = some c) :
    e.fire id generation =
      let left := c.hooks.foldl (fun f hook => f.applyAll hook.operations)
        (e.withPresence (e.presence.cancel id))
      (c.hooks.map fun hook => ⟨hook.name, c⟩,
        left.withPresence (left.presence.finishFiring id ⟨c, e.presence.registrations[id]?⟩)) := by
  unfold fire
  rw [Presence.beginFiring_eq hpending hc]
  rfl

/-- Presence as the hooks leave it. -/
theorem presence_hooks (e : Engine) (hooks : List TeardownHook) :
    (hooks.foldl (fun f hook => f.applyAll hook.operations) e).presence =
      e.presence.after (e.allDeeds (hooks.flatMap TeardownHook.operations)) := by
  rw [← presence_applyAll]
  exact congrArg presence (e.runHooks_eq {id := "", route := "", session := "", hooks})

/-- **Teardown is safe against hooks that call back.** When a cleanup fires that is
pending, each hook of the context runs once, in order, and is given the context as it
was found. If the hooks register or unregister the id, or leave a cleanup pending,
all stays as they left it; else the context is live still, and is unregistered. The
same holds of the two halves with anything at all done in between, by hooks or by
others. Hooks stand in the order of their registration. -/
theorem teardown_safe {documents : Assembler} {files : Files} {cleanupDelay : Nat}
    {deeds : List (Deed TeardownHook)} {e : Engine}
    (hcourse : Course (start documents files cleanupDelay) deeds e) {id : ContextId}
    {generation : Nat} {c : LiveContext} (hpending : e.presence.pending[id]? = some generation)
    (hc : e.presence.contexts[id]? = some c) :
    let begun := e.withPresence (e.presence.cancel id)
    let left := c.hooks.foldl (fun f hook => f.applyAll hook.operations) begun
    let found : Firing TeardownHook := ⟨c, e.presence.registrations[id]?⟩
    (e.fire id generation).1 = c.hooks.map (fun hook => ⟨hook.name, c⟩) ∧
    ((∃ hook ∈ c.hooks, ∃ op ∈ hook.operations, op.Settles id) ∨
        left.presence.isPending id = true → (e.fire id generation).2 = left) ∧
    ((∀ hook ∈ c.hooks, ∀ op ∈ hook.operations, ¬ op.Settles id) →
      ¬ left.presence.isPending id = true →
        id ∈ left.presence.contexts ∧ (e.fire id generation).2 = (left.apply (.unregister id)).2) ∧
    (∀ during : List (Deed TeardownHook),
      let now := begun.presence.after during
      ((∃ d ∈ during, d.Settles id) ∨ now.isPending id = true → now.finishFiring id found = now) ∧
      ((∀ d ∈ during, ¬ d.Settles id ∧ ∀ f, d ≠ .finishFiring id f) →
        ¬ now.isPending id = true →
          id ∈ now.contexts ∧ now.finishFiring id found = now.unregister id) ∧
      (now.finishFiring id found = now ∨ now.finishFiring id found = now.unregister id)) ∧
    (∀ setters, (Setter.applyAll setters c).hooks = c.hooks ++ setters.filterMap Setter.hook?) ∧
    ∀ (p : Presence TeardownHook) (r : LiveContext) (rest : List (Deed TeardownHook)),
      (∀ d ∈ rest, d.BySetters ∧ ∀ other, d = .register other → other.id ≠ r.id) →
      ((p.register r).after rest).contexts[r.id]? = some c → r.hooks <+: c.hooks := by
  intro begun left found
  have hrun : e.presence = Presence.empty.after deeds := hcourse.presence_eq
  have hregistered : e.presence.Registered := hrun ▸ Presence.registered_empty.after deeds
  have hdated : e.presence.Dated := hrun ▸ Presence.dated_empty.after deeds
  have hhalves := Presence.finishFiring_after hregistered hdated hc
  have hleft : left.presence = (e.presence.cancel id).after
      (begun.allDeeds (c.hooks.flatMap TeardownHook.operations)) := begun.presence_hooks c.hooks
  have hsecond : (e.fire id generation).2 =
      left.withPresence (left.presence.finishFiring id found) :=
    congrArg Prod.snd (fire_eq hpending hc)
  rw [hsecond]
  refine ⟨congrArg Prod.fst (fire_eq hpending hc), ?_, ?_, ?_,
    fun setters => Setter.hooks_applyAll setters c, ?_⟩
  · intro hkept
    have hsame : left.presence.finishFiring id found = left.presence := by
      rw [hleft]
      refine (hhalves _).1 (hkept.imp ?_ fun hagain => ?_)
      · rintro ⟨hook, hhook, op, hop, hsettles⟩
        exact exists_mem_allDeeds (List.mem_flatMap.mpr ⟨hook, hhook, hop⟩)
          (fun f => (f.settles_deeds op id).mpr hsettles) begun
      · rwa [hleft] at hagain
    rw [hsame]
    rfl
  · intro hops hnot
    have hdeeds : ∀ d ∈ begun.allDeeds (c.hooks.flatMap TeardownHook.operations),
        ¬ d.Settles id ∧ ∀ firing, d ≠ .finishFiring id firing := by
      refine forall_allDeeds (fun f op hop d hd => ⟨fun hsettles => ?_, ?_⟩) begun
      · obtain ⟨hook, hhook, hop⟩ := List.mem_flatMap.mp hop
        exact hops hook hhook op hop ((f.settles_deeds op id).mp ⟨d, hd, hsettles⟩)
      · rintro firing rfl
        exact f.whole_deeds op _ hd
    rw [hleft] at hnot
    obtain ⟨hlive, hremoved⟩ := (hhalves _).2 hdeeds hnot
    rw [← hleft] at hlive hremoved
    exact ⟨hlive, congrArg left.withPresence hremoved⟩
  · intro during now
    exact ⟨(hhalves during).1, (hhalves during).2, now.finishFiring_cases id found⟩
  · intro p r rest hrest hat
    obtain ⟨r', hr', hprefix⟩ := Presence.hooks_after hrest hat
    rw [Presence.contexts_register, ExtTreeMap.getElem?_insert_self] at hr'
    obtain rfl := Option.some.inj hr'
    exact hprefix

/-- A context whose first hook registers it again, in another session; the second one
finds a client for it. -/
def reviving : LiveContext :=
  { id := "a", route := "/x", session := "s"
    hooks := [.mk "revive" [.register {id := "a", route := "/y", session := "t"}],
      .mk "greet" [.addClient {(default : Client) with id := "a"}]] }

/-- A context whose hook moves the other one. -/
def moving : LiveContext :=
  { id := "b", route := "/x", session := "s"
    hooks := [.mk "move" [.navigate "a" "/z"]] }

/-- Both are live, and cleanups are pending for both. -/
def parted : Engine :=
  let both := ((start default default 5).apply (.register reviving)).2
  let both := (both.apply (.register moving)).2
  ((both.apply (.disconnect "a")).2.apply (.disconnect "b")).2

/-- The first context survives its teardown as it was registered by its hook; the
second one is unregistered from where its hook left the engine. -/
theorem teardown_safe_parted :
    (parted.fire "a" 3).1 = [⟨"revive", reviving⟩, ⟨"greet", reviving⟩] ∧
      (parted.fire "a" 3).2.presence.sessions["a"]? = some "t" ∧
      (parted.fire "a" 3).2.presence.registrations["a"]? = some 5 ∧
      "a" ∈ (parted.fire "a" 3).2.presence.clients ∧
      (parted.fire "b" 4).2 =
        (((parted.withPresence (parted.presence.cancel "b")).apply
          (.navigate "a" "/z")).2.apply (.unregister "b")).2 ∧
      ((parted.presence.cancel "b").after [.schedule "b" 9]).finishFiring "b" ⟨moving, some 2⟩ =
        (parted.presence.cancel "b").after [.schedule "b" 9] ∧
      reviving.hooks.take 1 <+: reviving.hooks := by
  have hcourse : Course (start default default 5) _ parted :=
    .operation _ (.operation _ (.operation _ (.operation _ .rest)))
  have hfirst : parted.presence.contexts["a"]? = some reviving := rfl
  have hsecond : parted.presence.contexts["b"]? = some moving := rfl
  have hpending : parted.presence.pending["a"]? = some 3 := rfl
  have hpending' : parted.presence.pending["b"]? = some 4 := rfl
  obtain ⟨hruns, hkept, _, _, _, horder⟩ := teardown_safe hcourse hpending hfirst
  obtain ⟨_, _, hremoved, hhalves, _⟩ := teardown_safe hcourse hpending' hsecond
  have hleft := hkept (.inl ⟨_, List.mem_cons_self, _, List.mem_cons_self, rfl⟩)
  have hnone : ∀ hook ∈ moving.hooks, ∀ op ∈ hook.operations, ¬ op.Settles "b" := by
    intro hook hhook op hop
    obtain rfl := List.mem_singleton.mp hhook
    obtain rfl := List.mem_singleton.mp hop
    exact id
  have hgone := (hremoved hnone (by decide)).2
  have hagain := (hhalves [.schedule "b" 9]).1 (.inr rfl)
  -- The second hook was added to a context that had the first one.
  have hadded := horder .empty {reviving with hooks := reviving.hooks.take 1}
    [.change "a" (Setter.applyAll ((reviving.hooks.drop 1).map .onTeardown))]
    (List.forall_mem_singleton.mpr ⟨fun c => ⟨_, rfl⟩, nofun⟩) rfl
  refine ⟨hruns, ?_, ?_, ?_, hgone, hagain, hadded⟩
  · rw [hleft]
    rfl
  · rw [hleft]
    rfl
  · rw [hleft]
    decide

end Engine
end SharedViews

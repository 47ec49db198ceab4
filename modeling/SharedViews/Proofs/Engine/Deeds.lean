import SharedViews.Engine.Effect
import SharedViews.Proofs.Presence.Deeds

/-! What the engine does to presence, as deeds.

An operation comes to a short list of deeds, most of them to one or none; a firing
timer to its first half, the deeds of the hooks it runs, and its second half. So a
fact about all runs of deeds is a fact about the engine. The hooks of a firing were
brought in by earlier deeds, which is why `Managed` looks into the hooks of the
contexts that an operation registers. -/
namespace SharedViews
open Std

namespace Engine

/-- The only request that touches presence sets a global. -/
def inspectionDeeds (method : String) (params : Json) : List (Deed TeardownHook) :=
  match Inspection.Method.ofName? method, Inspection.stringParameter params "key" with
  | some .setGlobal, .ok key => [.setGlobal key (params.field "value")]
  | _, _ => []

def deeds (e : Engine) : Operation → List (Deed TeardownHook)
  | .register c => [.register c]
  | .unregister id => [.unregister id]
  | .navigate id route => [.navigate id route]
  | .joinCustom id scope => [.joinCustom id scope]
  | .leaveCustom id scope => [.leaveCustom id scope]
  | .edit id edits => [.change id fun c => (Edit.applyAll edits c).2]
  | .onTeardown id hook => [.change id fun c => c.onTeardown hook]
  | .schedule id delay => [.schedule id (e.now + delay.getD e.cleanupDelay)]
  | .cancel id => [.cancel id]
  | .addClient client => [.addClient client]
  | .dropClient id => [.dropClient id]
  | .connect client => [.cancel client.id, .addClient client]
  | .disconnect id => [.dropClient id, .schedule id (e.now + e.cleanupDelay)]
  | .setGlobal key value => [.setGlobal key value]
  | .writeSignal scope key value => [.writeSignal scope key value]
  | .removeSignal scope key => [.removeSignal scope key]
  | .addAction scope key handler => [.addAction scope key handler]
  | .enroll scope id => [.enroll scope id]
  | .withdraw scope id => [.withdraw scope id]
  | .inspect method params => inspectionDeeds method params
  | _ => []

/-- Nor does a request do anything to renders but drop views. -/
def inspectionEvents (method : String) (params : Json) : List (Event ViewError) :=
  match Inspection.Method.ofName? method, Inspection.stringParameter params "scope" with
  | some .invalidateScope, .ok text => [.invalidate (.parse text)]
  | some .clearCache, _ => [.clear]
  | _, _ => []

/-- All that a request of the inspection protocol does to an engine. -/
theorem call_snd (e : Engine) (method : String) (params : Json) :
    (Inspection.call method params e).2 =
      {e with
        traffic := e.traffic.run (inspectionEvents method params)
        presence := e.presence.after (inspectionDeeds method params)} := by
  unfold Inspection.call inspectionEvents inspectionDeeds
  cases Inspection.Method.ofName? method with
  | none => rfl
  | some m =>
    cases m with
    | setGlobal =>
      unfold Inspection.Method.run
      dsimp only
      cases Inspection.stringParameter params "key" <;> rfl
    | invalidateScope =>
      unfold Inspection.Method.run
      dsimp only
      cases Inspection.stringParameter params "scope" <;> rfl
    | getGlobal =>
      unfold Inspection.Method.run
      dsimp only
      cases Inspection.stringParameter params "key" <;> rfl
    | _ => rfl

theorem presence_apply (e : Engine) (op : Operation) :
    (e.apply op).2.presence = e.presence.after (e.deeds op) := by
  cases op with
  | edit id edits => exact e.presence.change_snd id (Edit.applyAll edits)
  | onTeardown id hook => exact e.presence.change_snd id fun c => ((), c.onTeardown hook)
  | inspect method params => exact congrArg presence (e.call_snd method params)
  | _ => rfl

/-! ### Lists of operations, and firing -/

def allDeeds (e : Engine) : List Operation → List (Deed TeardownHook)
  | [] => []
  | op :: rest => e.deeds op ++ allDeeds (e.apply op).2 rest

theorem presence_applyAll (e : Engine) (ops : List Operation) :
    (e.applyAll ops).presence = e.presence.after (e.allDeeds ops) := by
  induction ops generalizing e with
  | nil => rfl
  | cons op rest ih =>
    show ((e.apply op).2.applyAll rest).presence = _
    rw [ih, presence_apply]
    exact (Presence.after_append _ _ _).symm

/-- What is so of the deeds of each operation is so of all deeds. -/
theorem forall_allDeeds {P : Deed TeardownHook → Prop} {ops : List Operation}
    (h : ∀ (f : Engine) (op : Operation), op ∈ ops → ∀ d ∈ f.deeds op, P d) (e : Engine) :
    ∀ d ∈ e.allDeeds ops, P d := by
  induction ops generalizing e with
  | nil => nofun
  | cons op rest ih =>
    refine List.forall_mem_append.mpr ⟨h e op List.mem_cons_self, ih (fun f o ho => ?_) _⟩
    exact h f o (List.mem_cons_of_mem op ho)

theorem exists_mem_allDeeds {P : Deed TeardownHook → Prop} {ops : List Operation} {op : Operation}
    (hop : op ∈ ops) (h : ∀ f : Engine, ∃ d ∈ f.deeds op, P d) (e : Engine) :
    ∃ d ∈ e.allDeeds ops, P d := by
  induction ops generalizing e with
  | nil => cases hop
  | cons first rest ih =>
    rcases List.mem_cons.mp hop with rfl | hrest
    · obtain ⟨d, hmem, hd⟩ := h e
      exact ⟨d, List.mem_append_left _ hmem, hd⟩
    · obtain ⟨d, hmem, hd⟩ := ih hrest (e.apply first).2
      exact ⟨d, List.mem_append_right _ hmem, hd⟩

/-- Running hooks is issuing all they do, one hook after the other. -/
theorem runHooks_eq (e : Engine) (c : LiveContext) :
    (e.runHooks c).2 = e.applyAll (c.hooks.flatMap TeardownHook.operations) := by
  unfold runHooks
  dsimp only
  generalize c.hooks = hooks
  induction hooks generalizing e with
  | nil => rfl
  | cons hook rest ih =>
    rw [List.foldl_cons, ih, List.flatMap_cons, applyAll_append]

def firingDeeds (e : Engine) (id : ContextId) (generation : Nat) :
    List (Deed TeardownHook) :=
  match e.presence.beginFiring id generation with
  | (none, _) => [.beginFiring id generation]
  | (some firing, p) =>
    .beginFiring id generation ::
      ((e.withPresence p).allDeeds (firing.context.hooks.flatMap TeardownHook.operations) ++
        [.finishFiring id firing])

theorem presence_fire (e : Engine) (id : ContextId) (generation : Nat) :
    (e.fire id generation).2.presence = e.presence.after (e.firingDeeds id generation) := by
  have hbegin : e.presence.perform (.beginFiring id generation) =
      (e.presence.beginFiring id generation).2 := rfl
  unfold fire firingDeeds
  generalize e.presence.beginFiring id generation = begun at hbegin ⊢
  obtain ⟨found, p⟩ := begun
  cases found with
  | none => exact hbegin.symm
  | some firing =>
    show ((e.withPresence p).runHooks firing.context).2.presence.finishFiring id firing =
      (e.presence.perform (.beginFiring id generation)).after _
    rw [hbegin, runHooks_eq, presence_applyAll, Presence.after_append]
    rfl

/-- The engine goes on to another, and does these deeds to presence on the way. Time,
renders and documents change nothing about presence. -/
inductive Course (e : Engine) : List (Deed TeardownHook) → Engine → Prop
  | rest : Course e [] e
  | operation {deeds : List (Deed TeardownHook)} {f : Engine} (op : Operation) :
      Course e deeds f → Course e (deeds ++ f.deeds op) (f.apply op).2
  | fire {deeds : List (Deed TeardownHook)} {f : Engine} (id : ContextId) (generation : Nat) :
      Course e deeds f → Course e (deeds ++ f.firingDeeds id generation) (f.fire id generation).2
  | firstLoad {deeds : List (Deed TeardownHook)} {f : Engine} (call : Nat) (scope : Scope)
      (c : LiveContext) :
      Course e deeds f → Course e (deeds ++ [.register c]) (f.beginFirstLoad call scope c)
  | aside {deeds : List (Deed TeardownHook)} {f : Engine} (f' : Engine)
      (same : f'.presence = f.presence) : Course e deeds f → Course e deeds f'

theorem Course.presence_eq {e f : Engine} {deeds : List (Deed TeardownHook)}
    (h : Course e deeds f) : f.presence = e.presence.after deeds := by
  induction h with
  | rest => rfl
  | operation op _ ih => rw [presence_apply, Presence.after_append, ih]
  | fire id generation _ ih => rw [presence_fire, Presence.after_append, ih]
  | firstLoad call scope c _ ih =>
    rw [Presence.after_append, ← ih]
    rfl
  | aside f' same _ ih => rw [same, ih]

end Engine

/-! ### Operations that leave membership to the contexts -/

/-- Neither the operation nor what a hook that it brings in will issue changes membership
directly. -/
inductive Operation.Managed : Operation → Prop
  | register (c : LiveContext)
      (hooks : ∀ hook ∈ c.hooks, ∀ op ∈ hook.operations, Managed op) : Managed (.register c)
  | onTeardown (id : ContextId) (hook : TeardownHook)
      (operations : ∀ op ∈ hook.operations, Managed op) : Managed (.onTeardown id hook)
  | other (op : Operation) (notRegister : ∀ c, op ≠ .register c)
      (notOnTeardown : ∀ id hook, op ≠ .onTeardown id hook)
      (notEnroll : ∀ scope id, op ≠ .enroll scope id)
      (notWithdraw : ∀ scope id, op ≠ .withdraw scope id) : Managed op

def TeardownHook.Managed (hook : TeardownHook) : Prop := ∀ op ∈ hook.operations, op.Managed

/-- Deeds of the kind that keeps presence in order. -/
def Deed.Orderly (d : Deed TeardownHook) : Prop :=
  d.Managed ∧ d.BySetters ∧ d.Brings TeardownHook.Managed

namespace Engine

theorem orderly_inspectionDeeds (method : String) (params : Json) :
    ∀ d ∈ inspectionDeeds method params, d.Orderly := by
  unfold inspectionDeeds
  split
  · intro d hd
    obtain rfl := List.mem_singleton.mp hd
    exact ⟨trivial, trivial, trivial⟩
  · intro d hd
    cases hd

theorem orderly_deeds (e : Engine) {op : Operation} (h : op.Managed) :
    ∀ d ∈ e.deeds op, d.Orderly := by
  cases h with
  | register c hooks =>
    intro d hd
    obtain rfl := List.mem_singleton.mp hd
    exact ⟨trivial, trivial, hooks⟩
  | onTeardown id hook operations =>
    intro d hd
    obtain rfl := List.mem_singleton.mp hd
    exact ⟨trivial, fun c => ⟨[.onTeardown hook], rfl⟩, Deed.brings_onTeardown operations id⟩
  | other _ notRegister notOnTeardown notEnroll notWithdraw =>
    cases op with
    | register c => exact absurd rfl (notRegister c)
    | onTeardown id hook => exact absurd rfl (notOnTeardown id hook)
    | enroll scope id => exact absurd rfl (notEnroll scope id)
    | withdraw scope id => exact absurd rfl (notWithdraw scope id)
    | edit id edits =>
      intro d hd
      obtain rfl := List.mem_singleton.mp hd
      refine ⟨trivial, fun c => ⟨edits.map .edit, Setter.applyAll_edits edits c⟩, ?_⟩
      intro c hc hook hhook
      rw [Edit.hooks_applyAll] at hhook
      exact hc hook hhook
    | inspect method params => exact orderly_inspectionDeeds method params
    | _ => simp [deeds, Deed.Orderly, Deed.Managed, Deed.BySetters, Deed.Brings]

theorem orderly_allDeeds (e : Engine) {ops : List Operation} (h : ∀ op ∈ ops, op.Managed) :
    ∀ d ∈ e.allDeeds ops, d.Orderly :=
  forall_allDeeds (fun f op hop => f.orderly_deeds (h op hop)) e

theorem orderly_firingDeeds (e : Engine) (h : e.presence.Hooked TeardownHook.Managed)
    (id : ContextId) (generation : Nat) : ∀ d ∈ e.firingDeeds id generation, d.Orderly := by
  have hbegin : (Deed.beginFiring id generation : Deed TeardownHook).Orderly :=
    ⟨trivial, trivial, trivial⟩
  unfold firingDeeds
  split
  · intro d hd
    obtain rfl := List.mem_singleton.mp hd
    exact hbegin
  · next firing p hfound =>
    -- The hooks are those of a live context, so an orderly deed brought them in.
    have hops : ∀ op ∈ firing.context.hooks.flatMap TeardownHook.operations, op.Managed := by
      intro op hop
      obtain ⟨hook, hhook, hop⟩ := List.mem_flatMap.mp hop
      exact h id firing.context (Presence.context_of_beginFiring hfound) hook hhook op hop
    intro d hd
    rcases List.mem_cons.mp hd with rfl | hd
    · exact hbegin
    · rcases List.mem_append.mp hd with hhooks | hfinish
      · exact orderly_allDeeds _ hops d hhooks
      · obtain rfl := List.mem_singleton.mp hfinish
        exact ⟨trivial, trivial, trivial⟩

/-! ### Reachable engines -/

/-- The engines that managed operations, firing timers and first loads lead to. Time,
renders and documents change nothing about presence. -/
inductive Reached : Engine → Prop
  | start (documents : Assembler) (files : Files) (cleanupDelay : Nat) :
      Reached (start documents files cleanupDelay)
  | operation {e : Engine} (op : Operation) (managed : op.Managed) :
      Reached e → Reached (e.apply op).2
  | fire {e : Engine} (id : ContextId) (generation : Nat) :
      Reached e → Reached (e.fire id generation).2
  | firstLoad {e : Engine} (call : Nat) (scope : Scope) (c : LiveContext)
      (managed : ∀ hook ∈ c.hooks, hook.Managed) :
      Reached e → Reached (e.beginFirstLoad call scope c)
  | aside {e : Engine} (e' : Engine) (same : e'.presence = e.presence) :
      Reached e → Reached e'

/-- Presence in a reachable engine is the outcome of a run of orderly deeds. -/
theorem Reached.run {e : Engine} (h : Reached e) :
    ∃ deeds : List (Deed TeardownHook), (∀ d ∈ deeds, d.Orderly) ∧
      e.presence = Presence.empty.after deeds := by
  induction h with
  | start => exact ⟨[], nofun, rfl⟩
  | @operation e op managed _ ih =>
    obtain ⟨deeds, hd, he⟩ := ih
    refine ⟨deeds ++ e.deeds op, ?_, ?_⟩
    · exact List.forall_mem_append.mpr ⟨hd, e.orderly_deeds managed⟩
    · rw [presence_apply, Presence.after_append, ← he]
  | @fire e id generation _ ih =>
    obtain ⟨deeds, hd, he⟩ := ih
    have hhooked : e.presence.Hooked TeardownHook.Managed := by
      rw [he]
      exact Presence.hooked_after fun d hmem => (hd d hmem).2.2
    refine ⟨deeds ++ e.firingDeeds id generation, ?_, ?_⟩
    · exact List.forall_mem_append.mpr ⟨hd, e.orderly_firingDeeds hhooked id generation⟩
    · rw [presence_fire, Presence.after_append, ← he]
  | @firstLoad e call scope c managed _ ih =>
    obtain ⟨deeds, hd, he⟩ := ih
    refine ⟨deeds ++ [.register c], ?_, ?_⟩
    · refine List.forall_mem_append.mpr ⟨hd, fun d hmem => ?_⟩
      obtain rfl := List.mem_singleton.mp hmem
      exact ⟨trivial, trivial, managed⟩
    · rw [Presence.after_append, ← he]
      rfl
  | aside e' same _ ih =>
    rw [same]
    exact ih

end Engine
end SharedViews

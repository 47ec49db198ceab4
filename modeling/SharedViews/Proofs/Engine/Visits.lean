import SharedViews.Proofs.Engine.Acts
import SharedViews.Proofs.Presence.Timers

/-! Clients that are there, and cleanups that are to come.

An id has a client while its page is open, and a cleanup pending while its context waits for
the page to come back; never both, as long as clients come and go by whole visits. A page
that connects takes the cleanup back before its client is recorded, one that disconnects
drops the client before the cleanup is set, and nothing else adds to either table
(`stirs`). So the two stay apart whatever is done, also by the hooks of a firing, and
whenever a timer calls (`visits_exclusive`). -/
namespace SharedViews
open Std

/-- The deed adds to the clients or to the pending cleanups. -/
def Deed.Adds {Hook : Type} : Deed Hook → Prop
  | .addClient _ | .schedule _ _ => True
  | _ => False

/-- Clients and cleanups are left to whole visits. -/
def Operation.Paired : Operation → Prop
  | .schedule _ _ | .addClient _ | .dropClient _ => False
  | _ => True

def Act.Paired : Act → Prop
  | .operation op => op.Paired
  | _ => True

/-- What may happen next: an act, or a change that a closure makes to a context. The two halves of
a firing are acts of their own, so what hooks do are the turns in between. -/
inductive Turn
  | act (a : Act) (paired : a.Paired)
  | change (id : ContextId) (f : LiveContext → LiveContext)

/-! ### One id at a time -/

namespace Presence
variable {Hook : Type} {p : Presence Hook} {d : Deed Hook}

/-- No id has both a client and a cleanup pending. -/
def Apart (p : Presence Hook) : Prop :=
  ∀ id, (p.standing id).client = none ∨ (p.standing id).pending = none

theorem Apart.perform (hp : p.Apart) (hd : ¬ d.Adds) : (p.perform d).Apart := by
  intro id
  -- What is left to a deed is to keep both as they are or to take one of them away.
  cases p.fate id d with
  | keep _ standing => exact standing ▸ hp id
  | register c own standing => exact .inr (congrArg Standing.pending standing)
  | remove _ _ _ standing => exact .inr (congrArg Standing.pending standing)
  | schedule due standing => exact absurd trivial hd
  | stop _ _ standing => exact .inr (congrArg Standing.pending standing)
  | addClient client own standing => exact absurd trivial hd
  | dropClient standing => exact .inl (congrArg Standing.client standing)

theorem standing_after_connect (p : Presence Hook) (client : Client) (id : ContextId) :
    ((p.cancel client.id).addClient client).standing id =
      if client.id = id then ⟨p.registrations[id]?, none, some client⟩ else p.standing id := by
  rw [standing_addClient, standing_cancel]
  split <;> rfl

theorem standing_after_disconnect (p : Presence Hook) (id : ContextId) (due : Nat) (x : ContextId) :
    ((p.dropClient id).schedule id due).standing x =
      if id = x then ⟨p.registrations[x]?, some (p.lastGeneration + 1), none⟩
      else p.standing x := by
  rw [standing_schedule, standing_dropClient]
  split <;> rfl

/-- An id without a pending cleanup has no timer. -/
theorem Timely.id_ne {id : ContextId} (hp : p.Timely) (hnone : p.pending[id]? = none) (g : Nat)
    (timer : Timer) (h : p.timers[g]? = some timer) : timer.id ≠ id := by
  intro hid
  have hpending := (hp.inStep timer.id g).mpr ⟨timer.due, h⟩
  rw [hid, hnone] at hpending
  cases hpending

/-- An id has one timer at most. -/
theorem Timely.timer_iff {id : ContextId} {g due : Nat} (hp : p.Timely)
    (h : p.timers[g]? = some ⟨id, due⟩) (g' : Nat) (timer : Timer) :
    p.timers[g']? = some timer ∧ timer.id = id ↔ g' = g ∧ timer = ⟨id, due⟩ := by
  constructor
  · intro ⟨h', hid⟩
    have hpending := (hp.inStep id g).mpr ⟨due, h⟩
    have hpending' := (hp.inStep timer.id g').mpr ⟨timer.due, h'⟩
    rw [hid, hpending] at hpending'
    obtain rfl := Option.some.inj hpending'
    exact ⟨rfl, Option.some.inj (h'.symm.trans h)⟩
  · intro ⟨hg, htimer⟩
    subst hg htimer
    exact ⟨h, rfl⟩

end Presence

/-! ### One turn -/

namespace Engine
variable {e f : Engine}

def turn (e : Engine) : Turn → Engine
  | .act a _ => e.step a
  | .change id f => e.withPresence (e.presence.change id fun c => ((), f c)).2

/-- Turns from first to last. -/
def through (e : Engine) (turns : List Turn) : Engine := turns.foldl turn e

/-- What a turn does to presence. -/
inductive Stirs (e : Engine) : Presence TeardownHook → Prop
  | connect (client : Client) : Stirs e (e.connect client).presence
  | disconnect (id : ContextId) : Stirs e (e.disconnect id).presence
  | deeds (deeds : List (Deed TeardownHook)) (adds : ∀ d ∈ deeds, ¬ d.Adds) :
      Stirs e (e.presence.after deeds)

theorem stirs_apply (e : Engine) {op : Operation} (h : op.Paired) :
    Stirs e (e.apply op).2.presence := by
  have hdeeds (adds : ∀ d ∈ e.deeds op, ¬ d.Adds) : Stirs e (e.apply op).2.presence := by
    rw [presence_apply]
    exact .deeds _ adds
  cases op with
  | connect client => exact .connect client
  | disconnect id => exact .disconnect id
  | schedule id delay => exact h.elim
  | addClient client => exact h.elim
  | dropClient id => exact h.elim
  | inspect method params =>
    refine hdeeds fun d hd => ?_
    simp only [deeds, inspectionDeeds] at hd
    split at hd <;> simp_all [Deed.Adds]
  | _ => exact hdeeds (by simp [deeds, Deed.Adds])

theorem stirs (e : Engine) (t : Turn) : Stirs e (e.turn t).presence := by
  have hone (d : Deed TeardownHook) (hd : ¬ d.Adds) : Stirs e (e.presence.perform d) :=
    .deeds [d] (by simpa using hd)
  have hnone : Stirs e e.presence := .deeds [] (by simp)
  cases t with
  | change id f => exact hone (.change id f) fun h => h
  | act a paired =>
    cases a with
    | operation op => exact e.stirs_apply paired
    | beginFiring id generation => exact hone (.beginFiring id generation) fun h => h
    | finishFiring id firing => exact hone (.finishFiring id firing) fun h => h
    | render event => exact hnone
    | recallShell =>
      obtain ⟨shell, h⟩ := e.recallShell_eq
      show Stirs e e.recallShell.2.presence
      rw [h]
      exact hnone
    | clock now => exact hnone

theorem cleanupDelay_apply (e : Engine) (op : Operation) :
    (e.apply op).2.cleanupDelay = e.cleanupDelay := by
  cases op with
  | inspect method params =>
    have h := congrArg cleanupDelay (e.call_snd method params)
    exact h
  | _ => rfl

theorem cleanupDelay_turn (e : Engine) (t : Turn) : (e.turn t).cleanupDelay = e.cleanupDelay := by
  cases t with
  | change id f => rfl
  | act a paired =>
    cases a with
    | operation op => exact e.cleanupDelay_apply op
    | recallShell =>
      obtain ⟨shell, h⟩ := e.recallShell_eq
      have hdelay := congrArg cleanupDelay h
      exact hdelay
    | _ => rfl

/-! ### All turns -/

/-- Clients and cleanups are apart, timers are in step with the cleanups, and the grace period
is the configured one. -/
structure Exclusive (cleanupDelay : Nat) (e : Engine) : Prop where
  apart : e.presence.Apart
  timely : e.presence.Timely
  configured : e.cleanupDelay = cleanupDelay

variable {cleanupDelay : Nat}

theorem exclusive_start (documents : Assembler) (files : Files) (cleanupDelay : Nat) :
    Exclusive cleanupDelay (start documents files cleanupDelay) where
  apart id := by simp [start, Presence.empty, Presence.standing]
  timely := Presence.timely_empty
  configured := rfl

theorem apart_connect (h : e.presence.Apart) (client : Client) :
    (e.connect client).presence.Apart := by
  intro id
  have hstanding := e.presence.standing_after_connect client id
  rw [connect, hstanding]
  split
  · exact .inr rfl
  · exact h id

theorem apart_disconnect (h : e.presence.Apart) (id : ContextId) :
    (e.disconnect id).presence.Apart := by
  intro x
  have hstanding := e.presence.standing_after_disconnect id (e.now + e.cleanupDelay) x
  rw [disconnect, schedule, hstanding]
  split
  · exact .inl rfl
  · exact h x

theorem timely_connect (h : e.presence.Timely) (client : Client) :
    (e.connect client).presence.Timely :=
  h.after [.cancel client.id, .addClient client]

theorem timely_disconnect (h : e.presence.Timely) (id : ContextId) :
    (e.disconnect id).presence.Timely :=
  h.after [.dropClient id, .schedule id (e.now + e.cleanupDelay)]

theorem exclusive_turn (h : Exclusive cleanupDelay e) (t : Turn) :
    Exclusive cleanupDelay (e.turn t) := by
  suffices hboth : (e.turn t).presence.Apart ∧ (e.turn t).presence.Timely from
    ⟨hboth.1, hboth.2, (e.cleanupDelay_turn t).trans h.configured⟩
  have hstirs := e.stirs t
  generalize (e.turn t).presence = q at hstirs
  cases hstirs with
  | connect client => exact ⟨apart_connect h.apart client, timely_connect h.timely client⟩
  | disconnect id => exact ⟨apart_disconnect h.apart id, timely_disconnect h.timely id⟩
  | deeds deeds adds =>
    exact ⟨Presence.after_induction _ _ (fun _ _ hp hd => hp.perform hd) h.apart adds,
      h.timely.after deeds⟩

theorem exclusive_through (h : Exclusive cleanupDelay e) (turns : List Turn) :
    Exclusive cleanupDelay (e.through turns) := by
  induction turns generalizing e with
  | nil => exact h
  | cons t rest ih => exact ih (exclusive_turn h t)

/-- A page that connects has its client, and nothing to come. -/
theorem Exclusive.connect (h : Exclusive cleanupDelay e) (client : Client) :
    let f := e.connect client
    f.presence.clients[client.id]? = some client ∧ client.id ∉ f.presence.pending ∧
      ∀ (g : Nat) timer, f.presence.timers[g]? = some timer → timer.id ≠ client.id := by
  have hstanding := e.presence.standing_after_connect client client.id
  rw [if_pos rfl] at hstanding
  have hnone : (e.connect client).presence.pending[client.id]? = none :=
    congrArg Standing.pending hstanding
  refine ⟨congrArg Standing.client hstanding, ?_, (timely_connect h.timely client).id_ne hnone⟩
  simp [ExtTreeMap.mem_iff_isSome_getElem?, hnone]

/-- A page that disconnects has no client, and one cleanup to come. -/
theorem Exclusive.disconnect (h : Exclusive cleanupDelay e) (id : ContextId) :
    let f := e.disconnect id
    id ∉ f.presence.clients ∧ ∃ g : Nat, f.presence.pending[id]? = some g ∧
      ∀ (g' : Nat) timer, f.presence.timers[g']? = some timer ∧ timer.id = id ↔
        g' = g ∧ timer = ⟨id, e.now + cleanupDelay⟩ := by
  have hstanding := e.presence.standing_after_disconnect id (e.now + e.cleanupDelay) id
  rw [if_pos rfl] at hstanding
  have hnone : (e.disconnect id).presence.clients[id]? = none := congrArg Standing.client hstanding
  have hset : (e.disconnect id).presence.timers[e.presence.lastGeneration + 1]? =
      some ⟨id, e.now + cleanupDelay⟩ := by
    rw [← h.configured]
    exact ((h.timely.perform (.dropClient id)).timers_perform (.schedule id _) _ _).mpr
      (.inl ⟨rfl, rfl⟩)
  refine ⟨?_, _, congrArg Standing.pending hstanding,
    (timely_disconnect h.timely id).timer_iff hset⟩
  simp [ExtTreeMap.mem_iff_isSome_getElem?, hnone]

/-! ### Firings and renders as turns -/

/-- Turns lead from the one engine to the other. -/
def Leads (e f : Engine) : Prop := ∃ turns, e.through turns = f

theorem leads_after (e : Engine) {acts : List Act} (h : ∀ a ∈ acts, a.Paired) :
    Leads e (e.after acts) := by
  induction acts generalizing e with
  | nil => exact ⟨[], rfl⟩
  | cons a rest ih =>
    obtain ⟨turns, hturns⟩ := ih (e.step a) fun b hb => h b (List.mem_cons_of_mem a hb)
    exact ⟨.act a (h a List.mem_cons_self) :: turns, hturns⟩

/-- A timer fires, and all that the hooks do is paired. -/
theorem leads_fire (e : Engine) (id : ContextId) (generation : Nat)
    (h : ∀ c, e.presence.contexts[id]? = some c →
      ∀ hook ∈ c.hooks, ∀ op ∈ hook.operations, op.Paired) :
    Leads e (e.fire id generation).2 := by
  rw [fire_eq_after]
  refine e.leads_after fun a ha => ?_
  rw [firingActs] at ha
  split at ha
  next =>
    obtain rfl := List.mem_singleton.mp ha
    trivial
  next firing hfound =>
    have hlive : e.presence.contexts[id]? = some firing.context :=
      Presence.context_of_beginFiring (Prod.ext hfound rfl)
    rcases List.mem_cons.mp ha with rfl | ha
    · trivial
    rcases List.mem_append.mp ha with hhooks | hfinish
    · obtain ⟨op, hop, rfl⟩ := List.mem_map.mp hhooks
      obtain ⟨hook, hhook, hop⟩ := List.mem_flatMap.mp hop
      exact h firing.context hlive hook hhook op hop
    · obtain rfl := List.mem_singleton.mp hfinish
      trivial

theorem leads_beginFirstLoad (e : Engine) (call : Nat) (scope : Scope) (c : LiveContext) :
    Leads e (e.beginFirstLoad call scope c) := by
  rw [beginFirstLoad_eq]
  exact e.leads_after (by simp [Act.Paired, Operation.Paired])

theorem leads_finishFirstLoad (e : Engine) (c : LiveContext) (result : Except ViewError String) :
    Leads e (e.finishFirstLoad c result).2 := by
  rcases e.finishFirstLoad_snd c result with h | h
  · exact ⟨[], h.symm⟩
  · exact ⟨[.act .recallShell trivial], h.symm⟩

theorem leads_beginUpdate {call : Nat} {scope : Scope} {id : ContextId} {seconds : Float}
    (h : e.beginUpdate call scope id seconds = some f) : Leads e f := by
  obtain ⟨c, -, rfl⟩ := Option.map_eq_some_iff.mp h
  exact ⟨[.act (.render (.arrive call (requestOf scope .update c) seconds)) trivial], rfl⟩

/-- **A connected client has no cleanup pending.** After all turns, in which timers may call at
any moment and anything that leaves clients and cleanups to whole visits may be done while
hooks run: no id has both a client and a cleanup pending. A page that connects has its client
and nothing pending, whatever was before; one that disconnects has no client and one cleanup
pending, whose timer is the only one of the id and due when the configured grace period from
now is over. Whole firings, if the hooks leave clients and cleanups to visits, first loads
and updates are turns like the others. -/
theorem visits_exclusive (documents : Assembler) (files : Files) (cleanupDelay : Nat)
    (turns : List Turn) :
    let e := (start documents files cleanupDelay).through turns
    (∀ id, ¬ (id ∈ e.presence.clients ∧ id ∈ e.presence.pending)) ∧
    (∀ client : Client, let f := e.connect client
      f.presence.clients[client.id]? = some client ∧ client.id ∉ f.presence.pending ∧
        ∀ (g : Nat) timer, f.presence.timers[g]? = some timer → timer.id ≠ client.id) ∧
    (∀ id, let f := e.disconnect id
      id ∉ f.presence.clients ∧ ∃ g : Nat, f.presence.pending[id]? = some g ∧
        ∀ (g' : Nat) timer, f.presence.timers[g']? = some timer ∧ timer.id = id ↔
          g' = g ∧ timer = ⟨id, e.now + cleanupDelay⟩) ∧
    (∀ id generation, (∀ c, e.presence.contexts[id]? = some c →
      ∀ hook ∈ c.hooks, ∀ op ∈ hook.operations, op.Paired) →
        e.Leads (e.fire id generation).2) ∧
    (∀ call scope c, e.Leads (e.beginFirstLoad call scope c)) ∧
    (∀ c result, e.Leads (e.finishFirstLoad c result).2) ∧
    ∀ call scope id seconds f, e.beginUpdate call scope id seconds = some f → e.Leads f := by
  intro e
  have h : Exclusive cleanupDelay e :=
    exclusive_through (exclusive_start documents files cleanupDelay) turns
  refine ⟨fun id => ?_, h.connect, h.disconnect, e.leads_fire, e.leads_beginFirstLoad,
    e.leads_finishFirstLoad, fun _ _ _ _ _ => leads_beginUpdate⟩
  intro ⟨hclient, hpending⟩
  rw [ExtTreeMap.mem_iff_isSome_getElem?] at hclient hpending
  rcases h.apart id with hnone | hnone
  · exact Option.isSome_iff_ne_none.mp hclient hnone
  · exact Option.isSome_iff_ne_none.mp hpending hnone

/-- A context whose hook connects its page and disconnects the other's. -/
def hasty : LiveContext :=
  { id := "a", route := "/", session := "s"
    hooks := [.mk "swap" [.connect {(default : Client) with id := "a"}, .disconnect "b"]] }

/-- Both pages connect, and the first one disconnects twice. -/
def overlapping : List Turn :=
  [.act (.operation (.register hasty)) trivial,
    .act (.operation (.register {id := "b", route := "/", session := "s"})) trivial,
    .act (.operation (.connect {(default : Client) with id := "a"})) trivial,
    .act (.operation (.connect {(default : Client) with id := "b"})) trivial,
    .act (.operation (.disconnect "a")) trivial, .act (.clock 3) trivial,
    .act (.operation (.disconnect "a")) trivial, .act (.clock 8) trivial]

/-- The second time the page disconnects, the first timer is replaced, and calls in vain. When the
other timer calls, the hook leaves a cleanup pending for the other page, whose client is gone. -/
theorem visits_exclusive_overlapping :
    let before := (start default default 5).through (overlapping.take 6)
    let e := (start default default 5).through overlapping
    (∃ g : Nat, (before.disconnect "a").presence.pending["a"]? = some g ∧
      ∀ (g' : Nat) timer, (before.disconnect "a").presence.timers[g']? = some timer ∧
        timer.id = "a" ↔ g' = g ∧ timer = ⟨"a", 8⟩) ∧
    ¬ ("a" ∈ e.presence.clients ∧ "a" ∈ e.presence.pending) ∧
    (e.fire "a" 3).2 = e ∧ e.presence.pending["a"]? = some 4 ∧
    (e.fire "a" 4).2.presence.timers[5]? = some ⟨"b", 13⟩ ∧
    ¬ ("b" ∈ (e.fire "a" 4).2.presence.clients ∧ "b" ∈ (e.fire "a" 4).2.presence.pending) := by
  intro before e
  obtain ⟨_, _, hdisconnect, _⟩ := visits_exclusive default default 5 (overlapping.take 6)
  obtain ⟨hapart, _, _, hfire, _⟩ := visits_exclusive default default 5 overlapping
  have hlive : e.presence.contexts["a"]? = some hasty := rfl
  have hpaired : ∀ c, e.presence.contexts["a"]? = some c →
      ∀ hook ∈ c.hooks, ∀ op ∈ hook.operations, op.Paired := by
    intro c hc
    obtain rfl := Option.some.inj (hlive.symm.trans hc)
    simp [hasty, TeardownHook.operations, Operation.Paired]
  obtain ⟨turns, hturns⟩ := hfire "a" 4 hpaired
  obtain ⟨hfired, _⟩ := visits_exclusive default default 5 (overlapping ++ turns)
  have hthrough : (start default default 5).through (overlapping ++ turns) = (e.fire "a" 4).2 := by
    rw [through, List.foldl_append]
    exact hturns
  rw [hthrough] at hfired
  exact ⟨(hdisconnect "a").2, hapart "a", rfl, rfl, rfl, hfired "b"⟩

end Engine
end SharedViews

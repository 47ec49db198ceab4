import SharedViews.Proofs.Engine.Acts

/-! What requests reach.

A request of the inspection protocol changes an engine in three ways at most: it drops the
views of a scope, drops all views, or writes one global value (`call_eq`). Global values
are written in no other way but directly, so what a request reads of one is what was
written last, whatever else the engine has done in between (`globals_after`). -/
namespace SharedViews
open Std

namespace Inspection
variable {method : String} {params : Json} {m : Method}

theorem Method.ofName?_name (m : Method) : Method.ofName? m.name = some m := by
  cases m <;> decide

theorem Method.ofName?_eq_some_iff : Method.ofName? method = some m ↔ method = m.name := by
  constructor
  · intro h
    have hname := List.find?_some h
    exact (beq_iff_eq.mp hname).symm
  · rintro rfl
    exact m.ofName?_name

theorem stringParameter_eq (params : Json) (name : String) : stringParameter params name =
    (params.field name).string?.elim (.error (.missingParameter name)) .ok := by
  unfold stringParameter
  cases (params.field name).string? <;> rfl

/-- What a request makes of the flights. -/
def dropped (method : String) (params : Json) (flights : Flights) : Flights :=
  if method = "invalidate_scope" then
    (params.field "scope").string?.elim flights fun text => flights.invalidate (.parse text)
  else if method = "clear_cache" then flights.clear
  else flights

/-- The key that a request writes, and the value. -/
def written? (method : String) (params : Json) : Option (String × Json) :=
  if method = "set_global" then
    (params.field "key").string?.map fun key => (key, params.field "value")
  else none

/-- A global value written, or none. -/
def store (globals : ExtTreeMap String Json) : Option (String × Json) → ExtTreeMap String Json
  | some (key, value) => globals.insert key value
  | none => globals

theorem getElem?_store (globals : ExtTreeMap String Json) (write : Option (String × Json))
    (key : String) : (store globals write)[key]? =
      ((write.filter (·.1 = key)).map Prod.snd).or globals[key]? := by
  cases write with
  | none => rfl
  | some entry =>
    rw [store, ExtTreeMap.getElem?_insert]
    by_cases hkey : entry.1 = key <;> simp [Option.filter, hkey]

theorem call_of_name (m : Method) (params : Json) (e : Engine) :
    call m.name params e = m.run params e := by
  rw [call, m.ofName?_name]

/-- A request under any other name is refused at once. -/
theorem call_of_no_name (h : ∀ m : Method, method ≠ m.name) (params : Json) (e : Engine) :
    call method params e = (.error .unknownMethod, e) := by
  have hnone : Method.ofName? method = none := by
    refine Option.eq_none_iff_forall_ne_some.mpr fun m hm => ?_
    exact h m (Method.ofName?_eq_some_iff.mp hm)
  rw [call, hnone]

/-- All that a request does to an engine. -/
theorem call_eq (e : Engine) (method : String) (params : Json) :
    (call method params e).2 =
      {e with
        traffic := {e.traffic with flights := dropped method params e.traffic.flights}
        presence := {e.presence with
          globals := store e.presence.globals (written? method params)}} := by
  by_cases h : ∃ m : Method, method = m.name
  · obtain ⟨m, rfl⟩ := h
    rw [call_of_name]
    cases m with
    | invalidateScope =>
      simp only [Method.run, stringParameter_eq]
      cases hscope : (params.field "scope").string? with
      | none => simp [dropped, written?, store, Method.name, hscope]
      | some text =>
        simp [dropped, written?, store, Method.name, hscope, Engine.onTraffic, Traffic.step]
    | getGlobal =>
      simp only [Method.run, stringParameter_eq]
      cases (params.field "key").string? <;> simp [dropped, written?, store, Method.name]
    | setGlobal =>
      simp only [Method.run, stringParameter_eq]
      cases hkey : (params.field "key").string? <;>
        simp [dropped, written?, store, Method.name, hkey, Presence.setGlobal]
    | _ => simp [Method.run, dropped, written?, store, Method.name, Engine.onTraffic, Traffic.step]
  · have hno : ∀ m : Method, method ≠ m.name := fun m heq => h ⟨m, heq⟩
    have hscope : method ≠ "invalidate_scope" := hno .invalidateScope
    have hclear : method ≠ "clear_cache" := hno .clearCache
    have hglobal : method ≠ "set_global" := hno .setGlobal
    rw [call_of_no_name hno]
    simp [dropped, written?, store, hscope, hclear, hglobal]

/-- A request that is refused does nothing. -/
theorem call_refused {e : Engine} {refusal : Refusal}
    (h : (call method params e).1 = .error refusal) : (call method params e).2 = e := by
  by_cases hname : ∃ m : Method, method = m.name
  · obtain ⟨m, rfl⟩ := hname
    rw [call_of_name] at h ⊢
    cases m with
    | invalidateScope =>
      simp only [Method.run, stringParameter_eq] at h ⊢
      cases hscope : (params.field "scope").string? <;> simp_all
    | getGlobal =>
      simp only [Method.run, stringParameter_eq]
      cases (params.field "key").string? <;> rfl
    | setGlobal =>
      simp only [Method.run, stringParameter_eq] at h ⊢
      cases hkey : (params.field "key").string? <;> simp_all
    | _ => cases h
  · rw [call_of_no_name fun m heq => hname ⟨m, heq⟩]

/-- What a request does to an engine, and what it leaves alone. -/
structure Confined (method : String) (params : Json) (e : Engine)
    (answered : Except Refusal Json × Engine) : Prop where
  /-- Contexts, sessions, clients, cleanups, membership, signals and actions stay. -/
  presence : answered.2.presence = {e.presence with globals := answered.2.presence.globals}
  /-- So do the calls and the durations of renders. -/
  renders : answered.2.traffic = {e.traffic with
    flights := {e.traffic.flights with
      cache := answered.2.traffic.flights.cache
      slots := answered.2.traffic.flights.slots}}
  /-- And what pages inject, the files, the shell and the time. -/
  rest : answered.2 = {e with
    presence := answered.2.presence, traffic := answered.2.traffic}
  flights : answered.2.traffic.flights = dropped method params e.traffic.flights
  globals : answered.2.presence.globals = store e.presence.globals (written? method params)
  looks : method ∉ ["invalidate_scope", "clear_cache", "set_global"] → answered.2 = e
  refused : ∀ refusal, answered.1 = .error refusal → answered.2 = e

theorem dropped_eq (method : String) (params : Json) (flights : Flights) :
    dropped method params flights = {flights with
      cache := (dropped method params flights).cache
      slots := (dropped method params flights).slots} := by
  unfold dropped
  split
  · cases (params.field "scope").string? <;> rfl
  · split <;> rfl

theorem confined_call (e : Engine) (method : String) (params : Json) :
    Confined method params e (call method params e) where
  presence := by rw [call_eq]
  renders := by
    rw [call_eq]
    exact congrArg (fun flights => {e.traffic with flights}) (dropped_eq _ _ _)
  rest := by rw [call_eq]
  flights := by rw [call_eq]
  globals := by rw [call_eq]
  looks h := by
    simp only [List.mem_cons, List.not_mem_nil, or_false, not_or] at h
    obtain ⟨hscope, hclear, hglobal⟩ := h
    rw [call_eq, dropped, if_neg hscope, if_neg hclear, written?, if_neg hglobal]
    rfl
  refused _ := call_refused

end Inspection

/-! ### Global values -/

namespace Presence
variable {Hook : Type}
open Inspection

theorem globals_cancel (p : Presence Hook) (id : ContextId) :
    (p.cancel id).globals = p.globals := by
  obtain ⟨pending, timers, h⟩ := p.cancel_eq id
  rw [h]

theorem globals_realign (p : Presence Hook) (id : ContextId) (before after : ExtTreeSet Scope) :
    (p.realign id before after).globals = p.globals := by
  have hglobals := congrArg globals (p.registry_realign id before after)
  exact hglobals

theorem globals_change {α : Type} (p : Presence Hook) (id : ContextId)
    (f : Context Hook → α × Context Hook) : (p.change id f).2.globals = p.globals := by
  cases h : p.contexts[id]? with
  | none => rw [change_of_none h]
  | some c => rw [change_eq h, globals_realign]

theorem globals_unregister (p : Presence Hook) (id : ContextId) :
    (p.unregister id).globals = p.globals := by
  by_cases h : id ∈ p.contexts
  · rw [unregister_eq h, dismiss, globals_cancel]
  · rw [unregister_of_not_mem h]

end Presence

/-- The key that a deed writes, and the value. -/
def Deed.written? {Hook : Type} : Deed Hook → Option (String × Json)
  | .setGlobal key value => some (key, value)
  | _ => none

/-- No deed but the one for it writes a global value. -/
theorem Presence.globals_perform {Hook : Type} (p : Presence Hook) (d : Deed Hook) :
    (p.perform d).globals = Inspection.store p.globals d.written? := by
  cases d with
  | register c =>
    show (p.register c).globals = p.globals
    rw [register_eq, globals_realign, recorded, globals_cancel]
  | unregister id => exact p.globals_unregister id
  | change id f => exact p.globals_change id _
  | navigate id route => exact p.globals_change id fun c => ((), {c with route})
  | joinCustom id scope => exact p.globals_change id _
  | leaveCustom id scope => exact p.globals_change id _
  | schedule id due => exact p.globals_cancel id
  | cancel id => exact p.globals_cancel id
  | beginFiring id generation =>
    show (p.beginFiring id generation).2.globals = p.globals
    unfold beginFiring
    split
    · exact p.globals_cancel id
    · rfl
  | finishFiring id firing =>
    show (p.finishFiring id firing).globals = p.globals
    unfold finishFiring
    split
    · exact p.globals_unregister id
    · rfl
  | _ => rfl

/-- The key that an act writes, and the value. -/
def Act.written? : Act → Option (String × Json)
  | .operation (.setGlobal key value) => some (key, value)
  | .operation (.inspect method params) => Inspection.written? method params
  | _ => none

/-- The value written last under the key. -/
def latest? (key : String) (acts : List Act) : Option Json :=
  acts.reverse.findSome? fun a => (a.written?.filter (·.1 = key)).map Prod.snd

namespace Engine

theorem globals_apply (e : Engine) (op : Operation) :
    (e.apply op).2.presence.globals =
      Inspection.store e.presence.globals (Act.operation op).written? := by
  cases op with
  | inspect method params => exact (Inspection.confined_call e method params).globals
  | _ =>
    rw [presence_apply]
    simp [deeds, Presence.after, Presence.globals_perform, Deed.written?, Act.written?,
      Inspection.store]

theorem globals_step (e : Engine) (a : Act) :
    (e.step a).presence.globals = Inspection.store e.presence.globals a.written? := by
  cases a with
  | operation op => exact e.globals_apply op
  | beginFiring id generation => exact e.presence.globals_perform (.beginFiring id generation)
  | finishFiring id firing => exact e.presence.globals_perform (.finishFiring id firing)
  | recallShell =>
    obtain ⟨shell, h⟩ := e.recallShell_eq
    show e.recallShell.2.presence.globals = _
    rw [h]
    rfl
  | _ => rfl

/-- Under every key stands what was written there last, or what stood there before. -/
theorem globals_after (e : Engine) (acts : List Act) (key : String) :
    (e.after acts).presence.globals[key]? = (latest? key acts).or e.presence.globals[key]? := by
  -- The induction takes the last act off: what it writes hides all that was there before.
  induction acts using List.reverseRecOn with
  | nil => rfl
  | append_singleton acts a ih =>
    have hlatest : latest? key (acts ++ [a]) =
        ((a.written?.filter (·.1 = key)).map Prod.snd).or (latest? key acts) := by
      rw [latest?, List.reverse_append, List.reverse_singleton, List.findSome?_append,
        List.findSome?_singleton]
      rfl
    rw [after_concat, globals_step, hlatest, Option.or_assoc, ← ih, Inspection.getElem?_store]

end Engine

namespace Inspection

theorem ofOption_eq (value : Option Json) : Json.ofOption value = value.getD .null := by
  cases value <;> rfl

/-- **Requests reach nothing else.** Of any engine, a request under any name and with any
parameters leaves everything as it is but the views and stale flights that it drops and the
one global value that it writes; if it only looks, or is refused, it leaves everything.
Whatever an engine has done, a global value is what was written last under its key, null
if nothing was, and what a writing request answers to have been there is what a reading
one would have answered. -/
theorem requests_confined :
    (∀ (e : Engine) (method : String) (params : Json),
      Confined method params e (call method params e)) ∧
    ∀ (documents : Assembler) (files : Files) (cleanupDelay : Nat) (acts : List Act)
      (key : String),
      ((Engine.start documents files cleanupDelay).after acts).presence.globals[key]? =
        latest? key acts ∧
      ∀ params : Json, (params.field "key").string? = some key →
        (call "get_global" params ((Engine.start documents files cleanupDelay).after acts)).1 =
          .ok ((latest? key acts).getD .null) ∧
        (call "set_global" params ((Engine.start documents files cleanupDelay).after acts)).1 =
          .ok (.ofFields [("previous", (latest? key acts).getD .null)]) := by
  refine ⟨confined_call, fun documents files cleanupDelay acts key => ?_⟩
  have hglobals : ((Engine.start documents files cleanupDelay).after acts).presence.globals[key]? =
      latest? key acts := by
    rw [Engine.globals_after]
    exact Option.or_none
  refine ⟨hglobals, fun params hkey => ?_⟩
  generalize (Engine.start documents files cleanupDelay).after acts = e at hglobals ⊢
  have hget : call "get_global" params e = Method.getGlobal.run params e :=
    call_of_name .getGlobal params e
  have hset : call "set_global" params e = Method.setGlobal.run params e :=
    call_of_name .setGlobal params e
  have hparameter : stringParameter params "key" = .ok key := by rw [stringParameter_eq, hkey]; rfl
  constructor
  · rw [hget, Method.run, hparameter]
    exact congrArg Except.ok (by rw [hglobals, ofOption_eq])
  · rw [hset, Method.run, hparameter]
    exact congrArg Except.ok (by rw [hglobals, ofOption_eq])

/-- The parameters of a request about one global value. -/
def about (key : String) : Json := .ofFields [("key", .string key)]

/-- A value is written directly, a context comes, and a request without a value follows. -/
def overwriting : List Act :=
  [.operation (.setGlobal "k" (.ofNat 1)),
    .operation (.register {id := "a", route := "/", session := "s"}),
    .operation (.inspect "set_global" (about "k"))]

/-- The value that a request leaves out counts as null. A request that only looks, and one
without its parameter, leave the engine as it is. -/
theorem requests_confined_overwriting :
    (call "set_global" (about "k") ((Engine.start default (fun _ => .error .notFound) 0).after
      (overwriting.take 2))).1 = .ok (.ofFields [("previous", .ofNat 1)]) ∧
    (call "get_global" (about "k") ((Engine.start default (fun _ => .error .notFound) 0).after
      overwriting)).1 = .ok .null ∧
    (call "list_scopes" .null default).2 = default ∧
    (call "set_global" .null default).2 = default := by
  obtain ⟨hconfined, hhistory⟩ := requests_confined
  have hkey : ((about "k").field "key").string? = some "k" := by decide +kernel
  have hhistory := fun acts =>
    (hhistory default (fun _ => .error .notFound) 0 acts "k").2 (about "k") hkey
  refine ⟨(hhistory _).2, (hhistory _).1, ?_, ?_⟩
  · exact (hconfined default "list_scopes" .null).looks (by decide)
  · exact (hconfined default "set_global" .null).refused (.missingParameter "key") rfl

end Inspection
end SharedViews

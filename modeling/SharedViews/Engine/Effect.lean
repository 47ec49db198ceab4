import SharedViews.Inspection.Method

/-! What operations do, and firing timers.

Each operation takes the engine to another and gives an answer. A firing timer
runs the hooks of the context it finds, in the order of registration, each on
the engine the one before left behind, and all of them with the context as it was
when the timer fired. -/
namespace SharedViews

/-- What an operation answers. -/
inductive Answer
  | done
  | flag (value : Bool)
  /-- The answers to the edits; `none` for an unknown context. -/
  | edits (answers : Option (List EditAnswer))
  | client (removed : Option Client)
  /-- The value that was there before. -/
  | previous (value : Option Json)
  | inspected (outcome : Except Inspection.Refusal Json)

namespace Engine

def withPresence (e : Engine) (presence : Presence TeardownHook) : Engine := {e with presence}

def withScopes (e : Engine) (scopes : Membership) : Engine :=
  e.withPresence {e.presence with scopes}

def apply (e : Engine) : Operation → Answer × Engine
  | .register c => (.done, e.withPresence (e.presence.register c))
  | .unregister id =>
    (.flag (e.presence.contexts.contains id), e.withPresence (e.presence.unregister id))
  | .navigate id route =>
    let (known, p) := e.presence.navigate id route
    (.flag known, e.withPresence p)
  | .joinCustom id scope =>
    let (did, p) := e.presence.joinCustom id scope
    (.flag did, e.withPresence p)
  | .leaveCustom id scope =>
    let (did, p) := e.presence.leaveCustom id scope
    (.flag did, e.withPresence p)
  | .edit id edits =>
    let (answers, p) := e.presence.edit id edits
    (.edits answers, e.withPresence p)
  | .onTeardown id hook =>
    let (known, p) := e.presence.onTeardown id hook
    (.flag known, e.withPresence p)
  | .schedule id delay => (.done, e.schedule id (delay.getD e.cleanupDelay))
  | .cancel id => (.flag (e.presence.isPending id), e.withPresence (e.presence.cancel id))
  | .addClient client => (.done, e.withPresence (e.presence.addClient client))
  | .dropClient id =>
    (.client e.presence.clients[id]?, e.withPresence (e.presence.dropClient id))
  | .connect client => (.done, e.connect client)
  | .disconnect id => (.done, e.disconnect id)
  | .setGlobal key value =>
    (.previous e.presence.globals[key]?, e.withPresence (e.presence.setGlobal key value))
  | .injectHead html => (.done, {e with documents := e.documents.injectHead html})
  | .injectFoot html => (.done, {e with documents := e.documents.injectFoot html})
  | .writeSignal scope key value => (.done, e.writeSignal scope key value)
  | .removeSignal scope key =>
    (.previous (e.presence.signals.get? scope key),
      e.withPresence {e.presence with signals := e.presence.signals.erase scope key})
  | .addAction scope key handler =>
    (.done, e.withPresence {e.presence with
      actions := e.presence.actions.insert scope key handler})
  | .enroll scope id =>
    let (did, scopes) := e.presence.scopes.join scope id
    (.flag did, e.withScopes scopes)
  | .withdraw scope id =>
    let (did, scopes) := e.presence.scopes.leave scope id
    (.flag did, e.withScopes scopes)
  | .invalidate scope => (.flag (e.holds scope), e.onTraffic (.invalidate scope))
  | .clearCache => (.done, e.onTraffic .clear)
  | .resetDurations => (.done, e.onTraffic .resetDurations)
  | .putFile path content => (.done, {e with files := e.files.put path content})
  | .inspect method params =>
    let (outcome, e) := Inspection.call method params e
    (.inspected outcome, e)

/-- Operations from first to last, their answers left aside. -/
def applyAll (e : Engine) : List Operation → Engine
  | [] => e
  | op :: rest => applyAll (e.apply op).2 rest

theorem applyAll_append (e : Engine) (a b : List Operation) :
    e.applyAll (a ++ b) = (e.applyAll a).applyAll b := by
  induction a generalizing e with
  | nil => rfl
  | cons op rest ih => exact ih _

/-! ### Firing timers -/

/-- A teardown hook that ran, and the context it was given. -/
structure HookRun where
  hook : String
  given : LiveContext
  deriving Inhabited

/-- Runs the hooks of a context that is being torn down. -/
def runHooks (e : Engine) (c : LiveContext) : List HookRun × Engine :=
  (c.hooks.map fun hook => ⟨hook.name, c⟩,
    c.hooks.foldl (fun e hook => e.applyAll hook.operations) e)

/-- A timer fires. -/
def fire (e : Engine) (id : ContextId) (generation : Nat) : List HookRun × Engine :=
  match e.presence.beginFiring id generation with
  | (none, p) => ([], e.withPresence p)
  | (some firing, p) =>
    let (runs, e) := (e.withPresence p).runHooks firing.context
    (runs, e.withPresence (e.presence.finishFiring id firing))

end Engine
end SharedViews

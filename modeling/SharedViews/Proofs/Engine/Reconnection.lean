import SharedViews.Proofs.Engine.Teardown
import SharedViews.Proofs.Presence.Underway

/-! Reconnection.

A page that connects is to find its context for as long as it stays. Whenever it
connects, this is so unless a firing of its id is open that has found the context's
present registration (`connect_keeps`): a cleanup that is pending is taken back, and
one that was set before a new registration finds that it is out of date, but one whose
hooks are running sees nothing of the connection. Operations outside of hooks meet no
open firing; a hook that connects its own page does, and the page is lost
(`connect_lost`). -/
namespace SharedViews.Engine
open Std Presence

/-- Between the operations, firings and first loads of an engine no firing is open. -/
theorem Course.underway {e f : Engine} {deeds : List (Deed TeardownHook)} (h : Course e deeds f) :
    Underway e.presence [] deeds [] := by
  induction h with
  | rest => exact .rest
  | @operation deeds f op _ ih => exact ih.append_whole (f.whole_deeds op)
  | @fire deeds f id generation hcourse ih =>
    have hpresence := hcourse.presence_eq
    unfold firingDeeds
    split
    next p hbegin =>
      refine .misses ?_ ih
      rw [← hpresence, hbegin]
    next firing p hbegin =>
      have hopen : Underway e.presence [] (deeds ++ [.beginFiring id generation])
          [(id, firing)] := by
        refine .begins ?_ ih
        rw [← hpresence, hbegin]
      have hwhole : ∀ d ∈ (f.withPresence p).allDeeds
          (firing.context.hooks.flatMap TeardownHook.operations), d.Whole :=
        forall_allDeeds (fun g op _ => g.whole_deeds op) _
      have hclosed := (hopen.append_whole hwhole).closes
      simpa only [List.append_assoc, List.cons_append, List.nil_append] using hclosed
  | firstLoad call scope c _ ih => exact ih.append_whole (by simp [Deed.Whole])
  | aside _ _ _ ih => exact ih

/-- **A connected client keeps its context**, whatever is done later that does not
release it, exactly if no open firing of its id has found the present registration.
In particular it does when it connects outside of teardown hooks. -/
theorem connect_keeps (client : Client) :
    (∀ (deeds : List (Deed TeardownHook)) (opened : List (ContextId × Firing TeardownHook)),
      Underway empty [] deeds opened → client.id ∈ (empty.after deeds).contexts →
      let p := empty.after deeds
      let q := (p.cancel client.id).addClient client
      (∀ firing, (client.id, firing) ∈ opened →
          firing.registration ≠ p.registrations[client.id]?) ↔
        ∀ later opened', Underway q opened later opened' →
          (∀ d ∈ later, ¬ d.Releases client.id) →
            client.id ∈ (q.after later).contexts ∧ client.id ∈ (q.after later).clients) ∧
    ∀ (documents : Assembler) (files : Files) (cleanupDelay : Nat)
      (deeds later : List (Deed TeardownHook)) (e f : Engine),
      Course (start documents files cleanupDelay) deeds e → client.id ∈ e.presence.contexts →
      Course (e.connect client) later f → (∀ d ∈ later, ¬ d.Releases client.id) →
        client.id ∈ f.presence.contexts ∧ client.id ∈ f.presence.clients := by
  refine ⟨?_, ?_⟩
  · intro deeds opened hrun hlive p q
    have hregistered := registered_empty.after deeds
    have hfound := found_underway registered_empty dated_empty (found_nil _) hrun
    refine ⟨fun hopen later opened' => live_connect hregistered hfound hlive hopen, ?_⟩
    intro hkept firing hmem hsame
    -- An open firing that has found the registration may come to its second half.
    obtain ⟨left, right, rfl⟩ := List.append_of_mem hmem
    have hfinish : Underway q (left ++ (client.id, firing) :: right)
        [.finishFiring client.id firing] (left ++ right) := .finishes .rest
    have hstays := hkept _ _ hfinish (List.forall_mem_singleton.mpr id)
    exact (finishFiring_connect client hlive hsame).1 hstays.1
  · intro documents files cleanupDelay deeds later e f hcourse hlive hlater hd
    have hrun : e.presence = empty.after deeds := hcourse.presence_eq
    have hregistered : e.presence.Registered := hrun ▸ registered_empty.after deeds
    rw [hlater.presence_eq]
    exact live_connect hregistered (found_nil _) hlive
      (fun _ hmem => absurd hmem List.not_mem_nil) hlater.underway hd

def visitor : Client := ⟨"a", "z", default, none⟩

/-- A context whose hook connects its own page. -/
def returning : LiveContext :=
  {id := "a", route := "/", session := "s", hooks := [.mk "back" [.connect visitor]]}

/-- Its page is gone, and the grace period is over. -/
def away : Engine :=
  let left := ((start default default 100).apply (.register returning)).2
  {(left.apply (.disconnect "a")).2 with now := 100}

theorem course_away : Course (start default default 100)
    [.register returning, .dropClient "a", .schedule "a" 100] away := by
  have hleft : Course (start default default 100) [.register returning, .dropClient "a",
      .schedule "a" 100] (((start default default 100).apply (.register returning)).2.apply
        (.disconnect "a")).2 :=
    .operation (.disconnect "a") (.operation (.register returning) .rest)
  refine .aside away ?_ hleft
  rfl

/-- The hook connects the page while its context is registered, and nothing releases it
afterwards; yet neither the context nor the client is there in the end. -/
theorem connect_lost :
    Course (start default default 100) [.register returning, .dropClient "a", .schedule "a" 100]
        away ∧
      away.firingDeeds "a" 2 = [.beginFiring "a" 2] ++ [.cancel visitor.id, .addClient visitor] ++
        [.finishFiring "a" ⟨returning, some 1⟩] ∧
      visitor.id ∈ (away.presence.after [.beginFiring "a" 2]).contexts ∧
      (∀ d ∈ ([.finishFiring "a" ⟨returning, some 1⟩] : List (Deed TeardownHook)),
        ¬ d.Releases visitor.id) ∧
      visitor.id ∉ (away.fire "a" 2).2.presence.contexts ∧
      visitor.id ∉ (away.fire "a" 2).2.presence.clients :=
  ⟨course_away, rfl, by decide, List.forall_mem_singleton.mpr id, by decide, by decide⟩

/-- The firing of the context is open. -/
def departing : List (Deed TeardownHook) :=
  [.register returning, .dropClient "a", .schedule "a" 100, .beginFiring "a" 2]

theorem underway_departing : Underway empty [] departing [("a", ⟨returning, some 1⟩)] := by
  have hset : Underway empty [] [.register returning, .dropClient "a", .schedule "a" 100] [] :=
    Underway.rest.append_whole (by simp [Deed.Whole])
  exact .begins rfl hset

/-- Connecting outside of hooks keeps the context, and so does connecting after a hook
has registered it anew; connecting alone, from a hook, does not. -/
theorem connect_keeps_away :
    (visitor.id ∈ ((away.connect visitor).fire "a" 2).2.presence.contexts ∧
        visitor.id ∈ ((away.connect visitor).fire "a" 2).2.presence.clients) ∧
      (let p := (empty : Presence TeardownHook).after (departing ++ [.register returning])
        let q := (p.cancel visitor.id).addClient visitor
        visitor.id ∈ (q.after [.finishFiring "a" ⟨returning, some 1⟩]).contexts ∧
          visitor.id ∈ (q.after [.finishFiring "a" ⟨returning, some 1⟩]).clients) ∧
      let p := (empty : Presence TeardownHook).after departing
      let q := (p.cancel visitor.id).addClient visitor
      ¬ ∀ later opened, Underway q [("a", ⟨returning, some 1⟩)] later opened →
        (∀ d ∈ later, ¬ d.Releases visitor.id) →
          visitor.id ∈ (q.after later).contexts ∧ visitor.id ∈ (q.after later).clients := by
  have hlater : Course (away.connect visitor) _ ((away.connect visitor).fire "a" 2).2 :=
    .fire "a" 2 .rest
  obtain ⟨hplaces, houtside⟩ := connect_keeps visitor
  have hkept := houtside _ _ _ _ _ _ _ course_away (by decide) hlater
    (List.forall_mem_singleton.mpr id)
  have hrenewed := underway_departing.whole (d := .register returning) trivial
  refine ⟨hkept, ?_, ?_⟩
  · refine (hplaces _ _ hrenewed (by decide)).mp ?_ _ [] Underway.rest.closes
      (List.forall_mem_singleton.mpr id)
    intro firing hmem
    obtain ⟨-, rfl⟩ := Prod.mk.inj (List.mem_singleton.mp hmem)
    decide
  · intro p q hall
    exact (hplaces _ _ underway_departing (by decide)).mpr hall _ List.mem_cons_self rfl

end SharedViews.Engine

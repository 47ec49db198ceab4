import SharedViews.Proofs.Engine.Deeds

/-! The indexes of presence agree.

Who is live is written down five times: in the contexts themselves, in their
sessions, in their registrations, and on both sides of membership. `Agreed` says
that the contexts determine the other four. Every deed keeps it that leaves
membership to the contexts and changes contexts by their setters; realigning is
where that takes an argument, the rest is look-ups. -/
namespace SharedViews.Presence
open Std
variable {Hook : Type}

/-- The other indexes are read off the contexts. -/
structure Agreed (p : Presence Hook) : Prop where
  sound : p.scopes.Sound
  members : ∀ id scope, p.scopes.Belongs id scope ↔ scope ∈ p.scopesOf id
  sessions : p.sessions = p.contexts.map fun _ c => c.session
  registrations : ∀ id, id ∈ p.registrations ↔ id ∈ p.contexts

theorem agreed_empty : Agreed (empty : Presence Hook) where
  sound := Membership.sound_empty
  members id scope := by simp [empty, Membership.empty, Membership.Belongs, Groups.of, scopesOf]
  sessions := by
    apply ExtTreeMap.ext_getElem?
    simp [empty]
  registrations id := by simp [empty]

theorem Alike.agreed {p q : Presence Hook} (h : Alike p q) (hp : Agreed p) : Agreed q where
  sound := h.scopes ▸ hp.sound
  members id scope := by
    unfold scopesOf
    rw [h.scopes, h.contexts]
    exact hp.members id scope
  sessions := by rw [h.sessions, h.contexts, hp.sessions]
  registrations id := by rw [h.registrations, h.contexts, hp.registrations]

/-! ### Look-ups -/

theorem mem_scopesOf (p : Presence Hook) (id : ContextId) (scope : Scope) :
    scope ∈ p.scopesOf id ↔ ∃ c, p.contexts[id]? = some c ∧ scope ∈ c.scopes := by
  unfold scopesOf
  cases p.contexts[id]? with
  | none => simp
  | some c => simp

theorem scopesOf_of_some {p : Presence Hook} {id : ContextId} {c : Context Hook}
    (h : p.contexts[id]? = some c) : p.scopesOf id = c.scopes := by
  unfold scopesOf
  rw [h]
  rfl

theorem scopesOf_of_insert {p q : Presence Hook} {id : ContextId} {c : Context Hook}
    (h : q.contexts = p.contexts.insert id c) (x : ContextId) :
    q.scopesOf x = if id = x then c.scopes else p.scopesOf x := by
  unfold scopesOf
  rw [h, ExtTreeMap.getElem?_insert]
  by_cases hx : id = x
  · simp [hx]
  · simp [hx]

theorem map_session_insert (contexts : ExtTreeMap ContextId (Context Hook)) (id : ContextId)
    (c : Context Hook) :
    (contexts.insert id c).map (fun _ c => c.session) =
      (contexts.map fun _ c => c.session).insert id c.session := by
  apply ExtTreeMap.ext_getElem?
  intro x
  rw [ExtTreeMap.getElem?_map, ExtTreeMap.getElem?_insert, ExtTreeMap.getElem?_insert,
    ExtTreeMap.getElem?_map]
  split <;> rfl

theorem map_session_erase (contexts : ExtTreeMap ContextId (Context Hook)) (id : ContextId) :
    (contexts.erase id).map (fun _ c => c.session) =
      (contexts.map fun _ c => c.session).erase id := by
  apply ExtTreeMap.ext_getElem?
  intro x
  rw [ExtTreeMap.getElem?_map, ExtTreeMap.getElem?_erase, ExtTreeMap.getElem?_erase,
    ExtTreeMap.getElem?_map]
  split <;> rfl

theorem insert_self {V : Type} {table : ExtTreeMap ContextId V} {id : ContextId} {value : V}
    (h : table[id]? = some value) : table.insert id value = table := by
  apply ExtTreeMap.ext_getElem?
  intro x
  rw [ExtTreeMap.getElem?_insert]
  by_cases hx : id = x
  · subst hx
    simp [h]
  · simp [hx]

/-! ### One deed -/

/-- Records that hold one new context are brought in line by realigning it. -/
theorem agreed_realign {p q : Presence Hook} {id : ContextId} {c : Context Hook} (hp : Agreed p)
    (hscopes : q.scopes = p.scopes) (hcontexts : q.contexts = p.contexts.insert id c)
    (hsessions : q.sessions = p.sessions.insert id c.session)
    (hregistrations : ∀ x, x ∈ q.registrations ↔ id = x ∨ x ∈ p.registrations) :
    Agreed (q.realign id (p.scopesOf id) c.scopes) := by
  have hregistry := q.registry_realign id (p.scopesOf id) c.scopes
  have hcontexts' := (contexts_of_registry hregistry).trans hcontexts
  refine ⟨sound_realign (hscopes ▸ hp.sound) _ _ _, ?_, ?_, ?_⟩
  · -- Only the context that was replaced moves; it was in exactly its old scopes.
    intro x scope
    rw [scopesOf_of_insert hcontexts']
    by_cases hx : id = x
    · subst hx
      rw [if_pos rfl]
      refine belongs_realign_self ?_ (fun s hs => Context.isShared_of_mem_scopes hs) scope
      intro s
      rw [hscopes]
      exact hp.members id s
    · rw [if_neg hx, belongs_realign_of_ne q hx, hscopes]
      exact hp.members x scope
  · have hsame := congrArg sessions hregistry
    rw [hcontexts', map_session_insert, ← hp.sessions, ← hsessions]
    exact hsame
  · intro x
    have hsame := congrArg registrations hregistry
    have hmem : x ∈ (q.realign id (p.scopesOf id) c.scopes).registrations ↔ x ∈ q.registrations :=
      iff_of_eq (congrArg (x ∈ ·) hsame)
    rw [hmem, hregistrations, hcontexts', ExtTreeMap.mem_insert, hp.registrations,
      Std.compare_eq_iff_eq]

theorem agreed_register {p : Presence Hook} (hp : Agreed p) (c : Context Hook) :
    Agreed (p.register c) := by
  rw [register_eq]
  refine agreed_realign hp (p.alike_cancel c.id).scopes rfl rfl ?_
  intro x
  show x ∈ p.registrations.insert c.id (p.lastGeneration + 1) ↔ _
  rw [ExtTreeMap.mem_insert, Std.compare_eq_iff_eq]

theorem agreed_change {p : Presence Hook} (hp : Agreed p) (id : ContextId)
    {f : Context Hook → Context Hook} (hf : ∀ c, (f c).session = c.session) :
    Agreed (p.change id fun c => ((), f c)).2 := by
  cases hc : p.contexts[id]? with
  | none =>
    rw [change_of_none hc]
    exact hp
  | some c =>
    have hsession : p.sessions[id]? = some (f c).session := by
      rw [hp.sessions, ExtTreeMap.getElem?_map, hc, hf]
      rfl
    have hlive : id ∈ p.registrations := by
      rw [hp.registrations, ExtTreeMap.mem_iff_isSome_getElem?, hc]
      rfl
    rw [change_eq hc, ← scopesOf_of_some hc]
    refine agreed_realign hp rfl rfl (insert_self hsession).symm ?_
    intro x
    constructor
    · exact Or.inr
    · intro hx
      rcases hx with hself | hother
      · rw [← hself]
        exact hlive
      · exact hother

theorem agreed_unregister {p : Presence Hook} (hp : Agreed p) (id : ContextId) :
    Agreed (p.unregister id) := by
  by_cases hid : id ∈ p.contexts
  · have hcontexts := contexts_unregister hid
    have hsessions : (p.unregister id).sessions = p.sessions.erase id := by
      rw [unregister_eq hid]
      exact (alike_cancel _ id).sessions
    have hregistrations : (p.unregister id).registrations = p.registrations.erase id := by
      rw [unregister_eq hid]
      exact (alike_cancel _ id).registrations
    refine ⟨sound_unregister hp.sound id, ?_, ?_, ?_⟩
    · intro x scope
      rw [scopes_unregister hid, hp.sound.belongs_removeAll, hp.members, mem_scopesOf, mem_scopesOf, hcontexts,
        ExtTreeMap.getElem?_erase]
      by_cases hx : id = x
      · simp [hx]
      · simp [hx]
    · rw [hsessions, hcontexts, map_session_erase, hp.sessions]
    · intro x
      rw [hregistrations, hcontexts, ExtTreeMap.mem_erase, ExtTreeMap.mem_erase,
        hp.registrations]
  · rw [unregister_of_not_mem hid]
    exact hp

theorem agreed_perform {p : Presence Hook} (hp : Agreed p) {d : Deed Hook} (hm : d.Managed)
    (hs : d.BySetters) : Agreed (p.perform d) := by
  have hupshot := p.upshot d
  generalize p.perform d = q at hupshot ⊢
  cases hupshot with
  | register c => exact agreed_register hp c
  | unregister _ id => exact agreed_unregister hp id
  | change _ id f source =>
    refine agreed_change hp id ?_
    intro c
    rcases source with rfl | ⟨e, he⟩
    · obtain ⟨setters, hf⟩ := hs c
      rw [hf]
      exact Setter.session_applyAll setters c
    · rw [he]
      exact (Setter.edit e).session_apply c
  | enroll scope id => exact hm.elim
  | withdraw scope id => exact hm.elim
  | store => exact ⟨hp.sound, hp.members, hp.sessions, hp.registrations⟩
  | aside _ _ alike => exact alike.agreed hp

/-! ### Whole runs -/

theorem agreed_after {deeds : List (Deed Hook)} (hd : ∀ d ∈ deeds, d.Managed ∧ d.BySetters) :
    Agreed ((empty : Presence Hook).after deeds) := by
  refine after_induction Agreed (fun d => d.Managed ∧ d.BySetters) ?_ agreed_empty hd
  intro p d hp hd
  exact agreed_perform hp hd.1 hd.2

/-! ### What queries answer -/

/-- Every query about who is present and where is answered as the contexts say. -/
structure InStep (p : Presence Hook) : Prop where
  members : ∀ id scope, id ∈ p.scopes.membersOf scope ↔
    ∃ c, p.contexts[id]? = some c ∧ scope ∈ c.scopes
  converse : ∀ id scope, scope ∈ p.scopes.scopesOf id ↔ id ∈ p.scopes.membersOf scope
  /-- The global scope, one route, one session and custom scopes; never the tab. -/
  kinds : ∀ (id : ContextId) c, p.contexts[id]? = some c → ∀ scope, scope ∈ c.scopes ↔
    scope = .global ∨ scope = .route c.route ∨ scope = .session c.session ∨
      ∃ name ∈ c.joined, scope = .custom name
  sessionKeys : ∀ id, id ∈ p.sessions ↔ id ∈ p.contexts
  registrationKeys : ∀ id, id ∈ p.registrations ↔ id ∈ p.contexts
  sessions : ∀ id : ContextId, p.sessions[id]? = p.contexts[id]?.map (·.session)
  inSession : ∀ session id, id ∈ p.inSession session ↔
    ∃ c, p.contexts[id]? = some c ∧ c.session = session

theorem mem_inSession (p : Presence Hook) (session : SessionId) (id : ContextId) :
    id ∈ p.inSession session ↔ p.sessions[id]? = some session := by
  unfold inSession
  rw [List.mem_map]
  constructor
  · intro h
    obtain ⟨⟨x, s⟩, hfiltered, rfl⟩ := h
    obtain ⟨hmem, hs⟩ := List.mem_filter.mp hfiltered
    rw [← beq_iff_eq.mp hs]
    exact ExtTreeMap.mem_toList_iff_getElem?_eq_some.mp hmem
  · intro h
    refine ⟨(id, session), List.mem_filter.mpr ⟨?_, beq_self_eq_true session⟩, rfl⟩
    exact ExtTreeMap.mem_toList_iff_getElem?_eq_some.mpr h

theorem Agreed.inStep {p : Presence Hook} (hp : Agreed p) : InStep p := by
  have hmembers : ∀ id scope, id ∈ p.scopes.membersOf scope ↔ p.scopes.Belongs id scope :=
    fun id scope => ExtTreeSet.mem_toList
  have hsessions : ∀ id : ContextId, p.sessions[id]? = p.contexts[id]?.map (·.session) := by
    intro id
    rw [hp.sessions, ExtTreeMap.getElem?_map]
  refine ⟨?_, ?_, ?_, ?_, hp.registrations, hsessions, ?_⟩
  · intro id scope
    rw [hmembers, hp.members, mem_scopesOf]
  · intro id scope
    rw [hmembers, hp.sound.mem_scopesOf]
  · intro id c _ scope
    exact c.mem_scopes scope
  · intro id
    rw [ExtTreeMap.mem_iff_isSome_getElem?, ExtTreeMap.mem_iff_isSome_getElem?, hsessions,
      Option.isSome_map]
  · intro session id
    rw [mem_inSession, hsessions, Option.map_eq_some_iff]

/-- **The indexes agree.** Every run of deeds that leaves membership to the contexts
and changes contexts by their setters ends with all queries answered as the contexts
say; and so does every run of managed operations of the engine, those included that
the teardown hooks of its firing timers issue. -/
theorem indexes_agree :
    (∀ deeds : List (Deed Hook), (∀ d ∈ deeds, d.Managed ∧ d.BySetters) →
      InStep (empty.after deeds)) ∧
    ∀ e : Engine, e.Reached → InStep e.presence := by
  refine ⟨fun deeds hd => (agreed_after hd).inStep, ?_⟩
  intro e he
  obtain ⟨deeds, hd, hrun⟩ := he.run
  rw [hrun]
  exact (agreed_after fun d hmem => ⟨(hd d hmem).1, (hd d hmem).2.1⟩).inStep

/-- A context is torn down and registered again, in another session, while its hooks
run; the second half of the firing then finds a registration it does not know. -/
def revived : List (Deed String) :=
  [.register {id := "a", route := "/x", session := "s"},
    .change "a" (Setter.applyAll [.edit (.joinCustom (.custom "room")), .onTeardown "revive"]),
    .schedule "a" 5, .beginFiring "a" 2,
    .register {id := "a", route := "/y", session := "t"},
    .finishFiring "a" ⟨{id := "a", route := "/x", session := "s"}, some 1⟩]

/-- A context whose hook makes another one join a scope. -/
def inviting : LiveContext :=
  { id := "a", route := "/x", session := "s"
    hooks := [.mk "invite" [.joinCustom "b" (.custom "room")]] }

/-- Both are live when the timer of the first one fires. -/
def invited : Engine :=
  let both := ((Engine.start default default 0).apply (.register inviting)).2
  let both := (both.apply (.register {id := "b", route := "/x", session := "s"})).2
  ((both.apply (.schedule "a" none)).2.fire "a" 3).2

theorem indexes_agree_revived :
    (∀ d ∈ revived, d.Managed ∧ d.BySetters) ∧
      (∃ c, (empty.after revived).contexts["a"]? = some c ∧ c.session = "t") ∧
      invited.Reached ∧ invited.presence.contexts["a"]? = none ∧
      ∃ c, invited.presence.contexts["b"]? = some c ∧ Scope.custom "room" ∈ c.scopes := by
  have hrevived : ∀ d ∈ revived, d.Managed ∧ d.BySetters := by
    simp only [revived, List.forall_mem_cons]
    refine ⟨⟨trivial, trivial⟩, ⟨trivial, fun c => ⟨_, rfl⟩⟩, ⟨trivial, trivial⟩,
      ⟨trivial, trivial⟩, ⟨trivial, trivial⟩, ⟨trivial, trivial⟩, nofun⟩
  have hreached : invited.Reached := by
    refine .fire "a" 3 (.operation _ (.other _ nofun nofun nofun nofun)
      (.operation _ (.register _ nofun) (.operation _ (.register _ ?_) (.start _ _ 0))))
    intro hook hhook op hop
    obtain rfl := List.mem_singleton.mp hhook
    obtain rfl := List.mem_singleton.mp hop
    exact .other _ nofun nofun nofun nofun
  obtain ⟨hruns, hengines⟩ := @indexes_agree String
  have hsession : "a" ∈ (empty.after revived).inSession "t" := by decide
  have hroom : "b" ∈ invited.presence.scopes.membersOf (.custom "room") := by decide
  have hgone : invited.presence.contexts["a"]? = none := rfl
  exact ⟨hrevived, ((hruns revived hrevived).inSession "t" "a").mp hsession, hreached, hgone,
    ((hengines invited hreached).members "b" (.custom "room")).mp hroom⟩

end SharedViews.Presence

import SharedViews.Proofs.Render.Waiting
import Mathlib.Algebra.BigOperators.Group.Finset.Piecewise
import Mathlib.Algebra.Order.BigOperators.Group.Finset
import Mathlib.Data.Set.Finite.Basic

/-! Every call comes to its end.

An event applies when the call that it names can take it; any other changes nothing
(`step_of_not_applies`), so only histories of events that apply measure how long calls
go on. Each turn that a call takes is its arrival, a claim or its last
(`Applies.effect`), so a call takes at most two more turns than it claims, and calls
claim no more often than there are calls that can lose a flight of their scope: the
turns of finitely many calls are bounded (`turns_le`). Where no view can end and no
waiter can go on, every call has come to its end (`over_of_still`). -/
namespace SharedViews.Traffic
open Std
variable {ε : Type} {es : List (Event ε)} {t : Traffic ε} {e : Event ε}

/-- The event finds the call that it names where it can take it. -/
def Applies (t : Traffic ε) : Event ε → Prop
  | .arrive call _ _ => t.calls.contains call = false
  | .viewEnds call _ _ =>
    ∃ request phase, t.At call request phase ∧
      (phase = .viewing ∨ ∃ flight, phase = .leading flight)
  | .resume call _ => t.canResume call = true
  | .cancel call => ∃ request phase, t.At call request phase ∧ ¬ Over phase
  | .invalidate _ | .clear | .resetDurations => True

/-- Every event of the history applies when it comes. -/
def Effective (es : List (Event ε)) : Prop := ∀ past e, Happens es past e → (after past).Applies e

/-- How many events name one of the calls. -/
def turns (es : List (Event ε)) (calls : Finset Nat) : Nat :=
  es.countP fun e => (caller? e).any (· ∈ calls)

/-- With a call that arrives, every other is there that arrives for its scope. -/
def Together (es : List (Event ε)) (calls : Finset Nat) : Prop :=
  ∀ call request seconds other r s, .arrive call request seconds ∈ es → .arrive other r s ∈ es →
    r.scope = request.scope → call ∈ calls → other ∈ calls

/-! ### Events that apply -/

/-- An event that does not apply changes nothing, so a history loses nothing without it. -/
theorem step_of_not_applies (h : ¬ t.Applies e) : t.step e = t := by
  cases e with
  | arrive call request seconds =>
    have hmem : t.calls.contains call = true := (Bool.not_eq_false _).mp h
    simp only [step, hmem, if_true]
  | viewEnds call outcome seconds =>
    simp only [step]
    split
    next request hat => exact absurd ⟨request, _, hat, .inl rfl⟩ h
    next request flight hat => exact absurd ⟨request, _, hat, .inr ⟨flight, rfl⟩⟩ h
    next => rfl
  | resume call seconds =>
    simp only [step]
    split
    next request flight hat =>
      have hnone : t.landed[flight]? = none := by
        rw [Option.eq_none_iff_forall_ne_some]
        intro outcome hl
        exact h (canResume_iff.mpr ⟨request, flight, hat, mem_landed_iff.mpr ⟨outcome, hl⟩⟩)
      rw [hnone]
    next => rfl
  | cancel call =>
    simp only [step]
    split
    next request hat => exact absurd ⟨request, _, hat, id⟩ h
    next request flight hat => exact absurd ⟨request, _, hat, id⟩ h
    next request flight hat => exact absurd ⟨request, _, hat, id⟩ h
    next => rfl
  | invalidate scope => exact absurd trivial h
  | clear => exact absurd trivial h
  | resetDurations => exact absurd trivial h

/-- An event that applies to a call lets it arrive, claim again or end. -/
theorem Applies.effect (h : t.Applies e) {call : Nat} (hcall : caller? e = some call) :
    (call ∉ t.calls ∧ ∃ request seconds, e = .arrive call request seconds) ∨
      ∃ request phase, t.At call request phase ∧ ¬ Over phase ∧
        ((∃ r, t.claimant? e = some (call, r)) ∨
          ∃ last, (t.step e).At call request last ∧ Over last) := by
  cases e with
  | arrive other request seconds =>
    cases hcall
    refine .inl ⟨fun hmem => ?_, request, seconds, rfl⟩
    rw [← ExtTreeMap.contains_iff_mem, show t.calls.contains call = false from h] at hmem
    cases hmem
  | viewEnds other outcome seconds =>
    cases hcall
    obtain ⟨request, phase, hat, rfl | ⟨flight, rfl⟩⟩ := h
    · refine .inr ⟨request, _, hat, id, .inr ⟨.returned outcome, ?_, trivial⟩⟩
      unfold At at hat
      simp only [step, hat]
      exact at_setPhase_self t call request _
    · exact .inr ⟨request, _, hat, id, .inr ⟨_, at_step_viewEnds hat outcome seconds, trivial⟩⟩
  | resume other seconds =>
    cases hcall
    obtain ⟨request, flight, hat, hlanded⟩ := canResume_iff.mp h
    obtain ⟨outcome, hl⟩ := mem_landed_iff.mp hlanded
    refine .inr ⟨request, _, hat, id, ?_⟩
    cases outcome with
    | none => exact .inl ⟨request, claimant_resume hat hl seconds⟩
    | some html =>
      refine .inr ⟨.returned (.ok html), ?_, trivial⟩
      rw [step_resume_of_landed hat hl]
      exact at_setPhase_self t call request _
  | cancel other =>
    cases hcall
    obtain ⟨request, phase, hat, hphase⟩ := h
    refine .inr ⟨request, phase, hat, hphase, .inr ⟨.cancelled, ?_, trivial⟩⟩
    have hcall : t.calls[call]? = some ⟨request, phase⟩ := hat
    cases phase with
    | viewing =>
      simp only [step, hcall]
      exact at_setPhase_self t call request _
    | leading flight =>
      rw [step_cancel_of_leading hat]
      exact at_setPhase_self _ call request _
    | waiting flight =>
      simp only [step, hcall]
      exact at_setPhase_self t call request _
    | returned result => exact absurd trivial hphase
    | cancelled => exact absurd trivial hphase
  | _ => cases hcall

theorem Effective.of_prefix {past : List (Event ε)} (h : Effective es) (hpre : past <+: es) :
    Effective past := fun start e he => h start e (he.mono hpre)

theorem Effective.concat (h : Effective es) (he : (after es).Applies e) :
    Effective (es ++ [e]) := by
  intro past e' he'
  rcases List.prefix_concat_iff.mp he' with heq | hpre
  · obtain ⟨rfl, hevent⟩ := List.append_inj' heq rfl
    obtain rfl : e' = e := by simpa using hevent
    exact he
  · exact h past e' hpre

theorem effective_nil : Effective ([] : List (Event ε)) := by
  intro past e he
  have hlen := he.length_le
  simp at hlen

/-! ### The turns of one call -/

theorem turns_concat (es : List (Event ε)) (e : Event ε) (calls : Finset Nat) :
    turns (es ++ [e]) calls = turns es calls + ((caller? e).any (· ∈ calls)).toNat := by
  unfold turns
  rw [List.countP_append]
  cases h : (caller? e).any (· ∈ calls) with
  | false => simp [h]
  | true => simp [h]

theorem turns_concat_of_ne {call : Nat} (h : caller? e ≠ some call) :
    turns (es ++ [e]) {call} = turns es {call} := by
  have hno : (caller? e).any (· ∈ ({call} : Finset Nat)) = false := by
    cases hc : caller? e with
    | none => rfl
    | some other =>
      rw [hc] at h
      simpa using h
  rw [turns_concat, hno]
  rfl

theorem turns_concat_of_eq {call : Nat} (h : caller? e = some call) :
    turns (es ++ [e]) {call} = turns es {call} + 1 := by
  rw [turns_concat, h]
  simp

theorem mem_calls_arrive (t : Traffic ε) (call : Nat) (request : Request) (seconds : Float) :
    call ∈ (t.step (.arrive call request seconds)).calls := by
  by_cases hmem : call ∈ t.calls
  · exact mem_calls_step hmem
  · have hnew : t.calls.contains call = false := by
      rwa [← Bool.not_eq_true, ExtTreeMap.contains_iff_mem]
    by_cases hr : request.isShared = true
    · have hc : t.claimant? (.arrive call request seconds) = some (call, request) := by
        simp only [claimant?, hnew, hr, Bool.not_false, Bool.and_self, if_true]
      exact mem_calls_of_claimant hc
    · simp only [step, hnew, hr]
      exact ExtTreeMap.mem_insert_self

/-- A call has arrived for what it asks for. -/
theorem arrived {call : Nat} {request : Request} {phase : Phase ε}
    (h : (after es).At call request phase) : ∃ seconds, .arrive call request seconds ∈ es := by
  induction es using List.reverseRecOn generalizing phase with
  | nil => exact absurd h not_at_nil
  | append_singleton es e ih =>
    rw [after_concat] at h
    have hold : ∀ {p}, (after es).At call request p →
        ∃ seconds, .arrive call request seconds ∈ es ++ [e] := by
      intro p hat
      obtain ⟨seconds, harrive⟩ := ih hat
      exact ⟨seconds, List.mem_append_left _ harrive⟩
    have hclaim : (after es).claimant? e = some (call, request) →
        ∃ seconds, .arrive call request seconds ∈ es ++ [e] := by
      intro hc
      rcases claimant_cases hc with ⟨seconds, rfl, _⟩ | ⟨_, _, _, hat, _⟩
      · exact ⟨seconds, by simp⟩
      · exact hold hat
    rcases moves h with ⟨hat, _⟩ | hmove
    · exact hold hat
    · cases hmove with
      | @view _ _ seconds _ _ => exact ⟨seconds, by simp⟩
      | viewed hat => exact hold hat
      | hit hc _ => exact hclaim hc
      | wait hc _ => exact hclaim hc
      | lead hc _ _ _ _ => exact hclaim hc
      | land hat => exact hold hat
      | served hat _ => exact hold hat
      | drop hat => exact hold hat

theorem turns_of_not_mem (heff : Effective es) {call : Nat} (h : call ∉ (after es).calls) :
    turns es {call} = 0 := by
  induction es using List.reverseRecOn with
  | nil => rfl
  | append_singleton es e ih =>
    have hpre := List.prefix_append es [e]
    rw [after_concat] at h
    have hbefore : call ∉ (after es).calls := fun hmem => h (mem_calls_step hmem)
    have hne : caller? e ≠ some call := by
      intro hcall
      rcases (heff es e (happens_concat es e)).effect hcall with ⟨_, r, s, rfl⟩ | ⟨r, p, hat, _⟩
      · exact h (mem_calls_arrive (after es) call r s)
      · exact hbefore (mem_calls_iff.mpr ⟨r, p, hat⟩)
    rw [turns_concat_of_ne hne]
    exact ih (heff.of_prefix hpre) hbefore

/-- A call takes one turn to arrive, one for each claim, and one to end. -/
theorem turns_one (heff : Effective es) {call : Nat} {request : Request} {phase : Phase ε}
    (h : (after es).At call request phase) :
    turns es {call} ≤ claimsOf es call + 2 ∧
      (¬ Over phase → turns es {call} ≤ claimsOf es call + 1) := by
  induction es using List.reverseRecOn generalizing request phase with
  | nil => exact absurd h not_at_nil
  | append_singleton es e ih =>
    have hpre := List.prefix_append es [e]
    have heff' := heff.of_prefix hpre
    have hclaims : claimsOf es call ≤ claimsOf (es ++ [e]) call := by
      rw [claimsOf_concat]
      exact Nat.le_add_right _ _
    rw [after_concat] at h
    by_cases hcall : caller? e = some call
    · rw [turns_concat_of_eq hcall]
      rcases (heff es e (happens_concat es e)).effect hcall with
        ⟨hnew, _⟩ | ⟨r, p, hat, hp, ⟨r', hc⟩ | ⟨last, hlast, hover⟩⟩
      · have hnone := turns_of_not_mem heff' hnew
        omega
      · have hcount := (ih heff' hat).2 hp
        rw [claimsOf_concat_of_claimant hc]
        omega
      · have hcount := (ih heff' hat).2 hp
        obtain ⟨-, rfl⟩ := h.unique hlast
        exact ⟨by omega, fun hopen => absurd hover hopen⟩
    · rw [turns_concat_of_ne hcall]
      have hcount := ih heff' ((at_step_iff hcall).mp h)
      exact ⟨by omega, fun hopen => Nat.le_trans (hcount.2 hopen) (by omega)⟩

/-! ### The turns of all calls -/

theorem turns_eq_sum (es : List (Event ε)) (calls : Finset Nat) :
    turns es calls = ∑ call ∈ calls, turns es {call} := by
  induction es using List.reverseRecOn with
  | nil => exact (Finset.sum_eq_zero fun _ _ => rfl).symm
  | append_singleton es e ih =>
    simp only [turns_concat, Finset.sum_add_distrib, ih, Nat.add_left_cancel_iff]
    cases caller? e with
    | none => exact (Finset.sum_eq_zero fun _ _ => rfl).symm
    | some call => simp [Bool.toNat, Bool.cond_decide]

/-- A call claims at most once for each call that may lead for its scope. -/
theorem claimsOf_le_card {calls : Finset Nat} (htogether : Together es calls) {call : Nat}
    {request : Request} {phase : Phase ε} (hmem : call ∈ calls)
    (h : (after es).At call request phase) : claimsOf es call ≤ calls.card := by
  obtain ⟨others, hcount, hothers⟩ := claims_le h
  obtain ⟨seconds, harrive⟩ := arrived h
  have hsub : others ⊆ calls.erase call := by
    intro other hother
    obtain ⟨hne, flight, hloses⟩ := hothers other hother
    obtain ⟨_, r, hleads, hscope⟩ := hloses.leads
    obtain ⟨_, hat, _⟩ := hleads.stage
    obtain ⟨s, harrive'⟩ := arrived hat
    exact Finset.mem_erase.mpr
      ⟨hne, htogether call request seconds other r s harrive harrive' hscope hmem⟩
  have hcard := Finset.card_le_card hsub
  have herase := Finset.card_erase_add_one hmem
  omega

/-- Finitely many calls take finitely many turns. -/
theorem turns_le (heff : Effective es) {calls : Finset Nat} (htogether : Together es calls) :
    turns es calls ≤ calls.card * (calls.card + 2) := by
  rw [turns_eq_sum]
  refine Finset.sum_le_card_nsmul calls _ _ fun call hmem => ?_
  by_cases hcall : call ∈ (after es).calls
  · obtain ⟨request, phase, hat⟩ := mem_calls_iff.mp hcall
    have hclaims := claimsOf_le_card htogether hmem hat
    have hturns := (turns_one heff hat).1
    omega
  · rw [turns_of_not_mem heff hcall]
    exact Nat.zero_le _

/-- Only calls that arrive take turns. -/
theorem caller_mem (heff : Effective es) {calls : Finset Nat}
    (hcalls : ∀ call request seconds, .arrive call request seconds ∈ es → call ∈ calls)
    (he : e ∈ es) {call : Nat} (hcall : caller? e = some call) : call ∈ calls := by
  obtain ⟨past, rest, rfl⟩ := List.append_of_mem he
  have happens : Happens (past ++ e :: rest) past e := ⟨rest, by simp⟩
  rcases (heff past e happens).effect hcall with ⟨_, r, s, rfl⟩ | ⟨r, p, hat, _⟩
  · exact hcalls call r s he
  · obtain ⟨s, harrive⟩ := arrived hat
    exact hcalls call r s (List.mem_append_left _ harrive)

/-- Where every call is one of finitely many, all events but the turns of these are
invalidations, clears and resets. -/
theorem length_le (heff : Effective es) {calls : Finset Nat}
    (hcalls : ∀ call request seconds, .arrive call request seconds ∈ es → call ∈ calls) :
    es.length ≤ es.countP (fun e => (caller? e).isNone) + calls.card * (calls.card + 2) := by
  have htogether : Together es calls := fun _ _ _ other r s _ h _ _ => hcalls other r s h
  have hturns := turns_le heff htogether
  have hnamed : es.countP (fun e => !(caller? e).isNone) ≤ turns es calls := by
    refine List.countP_mono_left fun e he hsome => ?_
    cases hcall : caller? e with
    | none => simp [hcall] at hsome
    | some call =>
      simpa [hcall] using caller_mem heff hcalls he hcall
  have hlen := List.length_eq_countP_add_countP (fun e : Event ε => (caller? e).isNone) (l := es)
  simp only [Bool.not_eq_true, Bool.decide_eq_false] at hlen
  omega

/-- Finitely many calls go on for ever only if there is no end to the invalidations,
clears and resets. -/
theorem infinite_unnamed {run : Nat → Event ε}
    (hrun : ∀ n, (after ((List.range n).map run)).Applies (run n)) {calls : Finset Nat}
    (hcalls : ∀ n call request seconds, run n = .arrive call request seconds → call ∈ calls) :
    {n | caller? (run n) = none}.Infinite := by
  have heff : ∀ n, Effective ((List.range n).map run) := by
    intro n
    induction n with
    | zero => exact effective_nil
    | succ n ih =>
      rw [List.range_succ, List.map_append]
      exact ih.concat (hrun n)
  intro hfinite
  -- A prefix of the run that is longer than finitely many such events allow.
  let n := hfinite.toFinset.card + calls.card * (calls.card + 2) + 1
  have hlen : ((List.range n).map run).length ≤ _ := length_le (heff n) fun call r s hmem => by
    obtain ⟨m, _, hm⟩ := List.mem_map.mp hmem
    exact hcalls m call r s hm
  have hunnamed : ((List.range n).map run).countP (fun e => (caller? e).isNone) ≤
      hfinite.toFinset.card := by
    rw [List.countP_map, List.countP_eq_length_filter,
      ← List.toFinset_card_of_nodup (List.nodup_range.filter _)]
    refine Finset.card_le_card fun m hm => ?_
    simpa using (List.mem_filter.mp (List.mem_toFinset.mp hm)).2
  rw [List.length_map, List.length_range] at hlen
  omega

/-! ### Where nothing goes on -/

/-- No call for the scope has anything left to take but a cancellation: no view can
end and no waiter can go on. -/
def Still (t : Traffic ε) (scope : Scope) : Prop :=
  ∀ call request phase e, t.At call request phase → request.scope = scope →
    caller? e = some call → t.Applies e → e = .cancel call

theorem over_of_still {scope : Scope} (h : (after es).Still scope) {call : Nat}
    {request : Request} {phase : Phase ε} (hat : (after es).At call request phase)
    (hscope : request.scope = scope) : Over phase := by
  have hview : ∀ {other r p}, (after es).At other r p → r.scope = scope →
      ¬ (p = .viewing ∨ ∃ flight, p = .leading flight) := by
    intro other r p hother hr hp
    cases h other r p (.viewEnds other (.ok "") 0.0) hother hr rfl ⟨r, p, hother, hp⟩
  cases phase with
  | viewing => exact absurd (.inl rfl) (hview hat hscope)
  | leading flight => exact absurd (.inr ⟨flight, rfl⟩) (hview hat hscope)
  | waiting flight =>
    rcases leader_of_waiting hat with ⟨leader, r, hleader, hr⟩ | hlanded
    · exact absurd (.inr ⟨flight, rfl⟩) (hview hleader (hr.trans hscope))
    · cases h call request _ (.resume call 0.0) hat hscope rfl
        (canResume_iff.mpr ⟨request, flight, hat, hlanded⟩)
  | returned result => trivial
  | cancelled => trivial

/-- **No stranded waiter.** A call that waits for a flight waits for one that is led
for its scope, or can go on from one that has landed: it returns the view that was
sent, or claims again, and waits for that flight no longer. A call leads at most once,
joins no flight twice, and claims at most once more than there are others that led for
its scope and lost. So finitely many calls take finitely many turns, and where no view
is left to end and no waiter to go on, every call has come to its end. -/
theorem waiting_ends (es : List (Event ε)) :
    (∀ call request flight, (after es).At call request (.waiting flight) →
      (∃ leader r, (after es).At leader r (.leading flight) ∧ r.scope = request.scope) ∨
      ((after es).canResume call = true ∧ ∀ seconds,
        ((∃ html, (after es).landed[flight]? = some (some html) ∧
            ((after es).step (.resume call seconds)).At call request (.returned (.ok html))) ∨
          ((after es).landed[flight]? = some none ∧
            (after es).claimant? (.resume call seconds) = some (call, request))) ∧
        ¬ ((after es).step (.resume call seconds)).At call request (.waiting flight))) ∧
    ((∀ leader r flight, ¬ (after es).At leader r (.leading flight)) →
      ∀ call request flight, (after es).At call request (.waiting flight) →
        (after es).canResume call = true) ∧
    (∀ start start' call request request' flight flight', Leads es start call request flight →
      Leads es start' call request' flight' → start = start' ∧ flight = flight') ∧
    (∀ past past' call flight, Joins es past call flight → Joins es past' call flight →
      past = past') ∧
    (∀ call request phase, (after es).At call request phase →
      ∃ others : Finset Nat, claimsOf es call ≤ others.card + 1 ∧
        ∀ other ∈ others, other ≠ call ∧ ∃ flight, Loses es other request.scope flight) ∧
    (Effective es → ∀ calls, Together es calls →
      turns es calls ≤ calls.card * (calls.card + 2)) ∧
    (∀ (run : Nat → Event ε) (calls : Finset Nat),
      (∀ n, (after ((List.range n).map run)).Applies (run n)) →
      (∀ n call request seconds, run n = .arrive call request seconds → call ∈ calls) →
      {n | caller? (run n) = none}.Infinite) ∧
    ∀ scope, (after es).Still scope → ∀ call request phase,
      (after es).At call request phase → request.scope = scope → Over phase := by
  have hresume : ∀ {call request flight}, (after es).At call request (.waiting flight) →
      flight ∈ (after es).landed → (after es).canResume call = true :=
    fun hat hlanded => canResume_iff.mpr ⟨_, _, hat, hlanded⟩
  refine ⟨?_, ?_, ?_, ?_, ?_, ?_, ?_, ?_⟩
  · intro call request flight hat
    rcases leader_of_waiting hat with hleader | hlanded
    · exact .inl hleader
    · refine .inr ⟨hresume hat hlanded, fun seconds =>
        ⟨?_, not_waiting_after_resume hat hlanded seconds⟩⟩
      obtain ⟨outcome, hl⟩ := mem_landed_iff.mp hlanded
      cases outcome with
      | none => exact .inr ⟨hl, claimant_resume hat hl seconds⟩
      | some html =>
        refine .inl ⟨html, hl, ?_⟩
        rw [step_resume_of_landed hat hl]
        exact at_setPhase_self (after es) call request _
  · intro hnone call request flight hat
    rcases leader_of_waiting hat with ⟨leader, r, hleader, _⟩ | hlanded
    · exact absurd hleader (hnone leader r flight)
    · exact hresume hat hlanded
  · intro start start' call request request' flight flight' hleads hleads'
    obtain rfl := hleads.once hleads'
    exact ⟨rfl, hleads.number.1.trans hleads'.number.1.symm⟩
  · intro past past' call flight hjoins hjoins'
    exact hjoins.once hjoins'
  · intro call request phase hat
    exact claims_le hat
  · intro heff calls htogether
    exact turns_le heff htogether
  · intro run calls hrun hcalls
    exact infinite_unnamed hrun hcalls
  · intro scope hstill call request phase hat hscope
    exact over_of_still hstill hat hscope

/-- Two calls wait for a view that fails; one claims again and is cancelled while it
leads, and the other leads at last. -/
def retried : List (Event String) :=
  [.arrive 0 globalUpdate 0.0, .arrive 1 globalUpdate 0.0, .arrive 2 globalUpdate 0.0,
    .viewEnds 0 (.error "down") 0.0, .resume 1 0.0, .resume 2 0.0, .cancel 1, .resume 2 0.0,
    .viewEnds 2 (.ok "up") 0.0]

theorem effective_retried : Effective retried := by
  have harrived : Effective (retried.take 3) :=
    ((effective_nil.concat (e := .arrive 0 globalUpdate 0.0) rfl).concat
      (e := .arrive 1 globalUpdate 0.0) rfl).concat (e := .arrive 2 globalUpdate 0.0) rfl
  have hfailed : Effective (retried.take 4) := harrived.concat ⟨_, _, rfl, .inr ⟨1, rfl⟩⟩
  have hclaimed : Effective (retried.take 6) :=
    (hfailed.concat (e := .resume 1 0.0) rfl).concat (e := .resume 2 0.0) rfl
  have hcancelled : Effective (retried.take 7) := hclaimed.concat ⟨_, _, rfl, id⟩
  have hled : Effective (retried.take 8) := hcancelled.concat (e := .resume 2 0.0) rfl
  exact hled.concat ⟨_, _, rfl, .inr ⟨3, rfl⟩⟩

theorem arrived_retried {es : List (Event String)} (hpre : es <+: retried) {call : Nat}
    {request : Request} {phase : Phase String} (h : (after es).At call request phase) :
    call = 0 ∨ call = 1 ∨ call = 2 := by
  obtain ⟨_, harrive⟩ := arrived h
  have hmem := hpre.subset harrive
  simp [retried] at hmem
  omega

theorem not_leading_retried (leader : Nat) (r : Request) (flight : Nat) :
    ¬ (after (retried.take 7)).At leader r (.leading flight) := by
  intro hat
  rcases arrived_retried (List.take_prefix 7 retried) hat with rfl | rfl | rfl
  · cases (hat.unique (show (after (retried.take 7)).At 0 globalUpdate _ from rfl)).2
  · cases (hat.unique (show (after (retried.take 7)).At 1 globalUpdate _ from rfl)).2
  · cases (hat.unique (show (after (retried.take 7)).At 2 globalUpdate _ from rfl)).2

theorem still_retried : (after retried).Still .global := by
  intro call request phase e hat _ hcall he
  have hover : Over phase := by
    rcases arrived_retried (List.prefix_refl retried) hat with rfl | rfl | rfl
    · obtain ⟨-, rfl⟩ := hat.unique (show (after retried).At 0 globalUpdate _ from rfl)
      trivial
    · obtain ⟨-, rfl⟩ := hat.unique (show (after retried).At 1 globalUpdate _ from rfl)
      trivial
    · obtain ⟨-, rfl⟩ := hat.unique (show (after retried).At 2 globalUpdate _ from rfl)
      trivial
  rcases he.effect hcall with ⟨hnew, _⟩ | ⟨r, p, hat', hp, _⟩
  · exact absurd (mem_calls_iff.mpr ⟨_, _, hat⟩) hnew
  · obtain ⟨-, rfl⟩ := hat.unique hat'
    exact absurd hover hp

/-- One render, and then nothing but clears. -/
def cleared : Nat → Event String
  | 0 => .arrive 0 globalUpdate 0.0
  | 1 => .viewEnds 0 (.ok "up") 0.0
  | _ => .clear

theorem applies_cleared (n : Nat) :
    (after ((List.range n).map cleared)).Applies (cleared n) := by
  match n with
  | 0 => rfl
  | 1 => exact ⟨globalUpdate, _, rfl, .inr ⟨1, rfl⟩⟩
  | n + 2 => trivial

/-- The second waiter leads at last, with its third claim, after two others lost. -/
theorem waiting_ends_retried :
    (∃ leader r, (after (retried.take 6)).At leader r (.leading 2) ∧ r.scope = .global) ∧
      (after (retried.take 7)).canResume 2 = true ∧
      (after (retried.take 8)).At 2 globalUpdate (.leading 3) ∧
      (∀ past, Joins retried past 2 2 → past = retried.take 5) ∧
      (∀ start request flight, Leads retried start 2 request flight → flight = 3) ∧
      claimsOf retried 2 = 3 ∧
      (∃ others : Finset Nat, 3 ≤ others.card + 1 ∧
        ∀ other ∈ others, other ≠ 2 ∧ ∃ flight, Loses retried other .global flight) ∧
      turns retried {0, 1, 2} ≤ 15 ∧
      (∀ call request phase, (after retried).At call request phase → request.scope = .global →
        Over phase) ∧
      {n | caller? (cleared n) = none}.Infinite := by
  obtain ⟨hwaits, _⟩ := waiting_ends (retried.take 6)
  obtain ⟨_, hblocked, _⟩ := waiting_ends (retried.take 7)
  obtain ⟨_, _, hleads, hjoins, hclaims, hturns, hruns, hstill⟩ := waiting_ends retried
  have htogether : Together retried {0, 1, 2} := by
    intro _ _ _ other r s _ harrive _ _
    simp [retried] at harrive
    simp only [Finset.mem_insert, Finset.mem_singleton]
    omega
  have hjoined : Joins retried (retried.take 5) 2 2 := ⟨_, globalUpdate, ⟨_, rfl⟩, rfl, rfl⟩
  have hled : Leads retried (retried.take 7) 2 globalUpdate 3 := ⟨_, ⟨_, rfl⟩, rfl, rfl⟩
  have hover : (after retried).At 2 globalUpdate (.returned (.ok "up")) := rfl
  have hthree : claimsOf retried 2 = 3 := rfl
  refine ⟨?_, hblocked not_leading_retried 2 globalUpdate 2 rfl, rfl, ?_, ?_, hthree, ?_,
    hturns effective_retried _ htogether, hstill .global still_retried, ?_⟩
  · rcases hwaits 2 globalUpdate 2 rfl with hleader | ⟨hresume, _⟩
    · exact hleader
    · cases hresume
  · exact fun past h => hjoins past _ 2 2 h hjoined
  · exact fun start request flight h => (hleads start _ 2 request _ flight 3 h hled).2
  · obtain ⟨others, hcount, hothers⟩ := hclaims 2 globalUpdate _ hover
    rw [hthree] at hcount
    exact ⟨others, hcount, hothers⟩
  · refine hruns cleared {0} applies_cleared ?_
    intro n call request seconds h
    match n with
    | 0 =>
      cases h
      simp
    | 1 => cases h
    | n + 2 => cases h

end SharedViews.Traffic

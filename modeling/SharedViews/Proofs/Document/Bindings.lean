import SharedViews.Proofs.Document.Tokens
import SharedViews.Proofs.Text.ByteOrder
import Mathlib.Data.List.TakeWhile

/-! Which signals the tokens of a shell show.

What a context has bound follows from its edits: for each id the last edit that touches it
decides (`getElem?_signals_applyAll`). The tokens follow from what is bound: a key is one of
five, or it is made of the stem of a bound signal, and the two keys of a stem show one signal,
the one whose id has the greatest bytes (`tokens_follow`). -/
namespace SharedViews
open Std

/-! ### Stems -/

/-- The stem of an id stands before its first number sign; without one it is the whole id. -/
def HasStem (id stem : String) : Prop :=
  '#' ∉ stem.toList ∧ (id = stem ∨ ∃ suffix, id = stem ++ "#" ++ suffix)

theorem toList_stemOf (id : String) : (stemOf id).toList = id.toList.takeWhile (· ≠ '#') :=
  String.toList_ofList

theorem hasStem_stemOf (id : String) : HasStem id (stemOf id) := by
  have hparts : (stemOf id).toList ++ id.toList.dropWhile (· ≠ '#') = id.toList := by
    rw [toList_stemOf, List.takeWhile_append_dropWhile]
  refine ⟨fun h => ?_, ?_⟩
  · rw [toList_stemOf] at h
    simpa using List.mem_takeWhile_imp h
  · have hstop := List.head?_dropWhile_not (· ≠ '#') id.toList
    cases hrest : id.toList.dropWhile (· ≠ '#') with
    | nil =>
      rw [hrest, List.append_nil] at hparts
      exact .inl (String.toList_inj.mp hparts.symm)
    | cons c suffix =>
      rw [hrest] at hparts hstop
      have hc : c = '#' := by simpa using hstop
      refine .inr ⟨.ofList suffix, String.toList_inj.mp ?_⟩
      simp [← hparts, hc]

/-- Each id has one stem. -/
theorem hasStem_iff {id stem : String} : HasStem id stem ↔ stemOf id = stem := by
  refine ⟨fun ⟨hplain, hid⟩ => ?_, fun h => h ▸ hasStem_stemOf id⟩
  have hall : ∀ c ∈ stem.toList, (decide (c ≠ '#')) = true := fun c hc =>
    decide_eq_true fun heq => hplain (heq ▸ hc)
  refine String.toList_inj.mp ?_
  rw [toList_stemOf]
  rcases hid with rfl | ⟨suffix, rfl⟩
  · exact List.takeWhile_eq_self_iff.mpr hall
  · simp only [String.toList_append, List.append_assoc]
    rw [List.takeWhile_append_of_pos hall]
    simp

/-! ### Edits -/

namespace Edit
variable {Hook : Type} {edits : List Edit} {c : Context Hook} {s : Signal} {sid : String}

/-- What an edit makes of the value bound to an id: nothing, or another value or none. -/
def outcome? (sid : String) : Edit → Option (Option Json)
  | .bind s => if s.id = sid then some (some s.value) else none
  | .unbind id => if id = sid then some none else none
  | _ => none

/-- An edit that binds or unbinds the id. -/
def Touches (e : Edit) (sid : String) : Prop := (∃ value, e = .bind ⟨sid, value⟩) ∨ e = .unbind sid

/-- The edits leave the signal bound: one of them binds it, with this value, and no later one
touches its id. -/
def Leave (edits : List Edit) (s : Signal) : Prop :=
  ∃ past rest, edits = past ++ .bind s :: rest ∧ ∀ e ∈ rest, ¬ e.Touches s.id

theorem Touches.eq {e : Edit} {other : String} (h : e.Touches sid) (h' : e.Touches other) :
    sid = other := by
  rcases h with ⟨value, rfl⟩ | rfl <;> simp_all [Touches]

theorem outcome?_eq_none_iff {e : Edit} : e.outcome? sid = none ↔ ¬ e.Touches sid := by
  cases e with
  | bind s => cases s; simp [outcome?, Touches]
  | _ => simp [outcome?, Touches]

instance (e : Edit) (sid : String) : Decidable (e.Touches sid) :=
  decidable_of_iff _ (not_congr outcome?_eq_none_iff |>.trans not_not)

theorem outcome?_eq_some_some_iff {e : Edit} {value : Json} :
    e.outcome? sid = some (some value) ↔ e = .bind ⟨sid, value⟩ := by
  cases e with
  | bind s => cases s; simp [outcome?]
  | _ => simp [outcome?]

theorem getElem?_signals_apply (e : Edit) (c : Context Hook) (sid : String) :
    (e.apply c).2.signals[sid]? = (e.outcome? sid).getD c.signals[sid]? := by
  cases e with
  | bind s =>
    simp only [apply, Context.bind, outcome?, ExtTreeMap.getElem?_insert,
      LawfulEqCmp.compare_eq_iff_eq]
    split <;> rfl
  | unbind id =>
    simp only [apply, Context.unbind, outcome?, ExtTreeMap.getElem?_erase,
      LawfulEqCmp.compare_eq_iff_eq]
    split <;> rfl
  | joinCustom scope => cases scope <;> rfl
  | leaveCustom scope => cases scope <;> rfl
  | _ => rfl

theorem getElem?_signals_applyAll (edits : List Edit) (c : Context Hook) (sid : String) :
    (applyAll edits c).2.signals[sid]? =
      (edits.reverse.findSome? (outcome? sid)).getD c.signals[sid]? := by
  induction edits generalizing c with
  | nil => rfl
  | cons e rest ih =>
    have hrest : (applyAll (e :: rest) c).2 = (applyAll rest (e.apply c).2).2 := rfl
    rw [hrest, ih, getElem?_signals_apply, List.reverse_cons, List.findSome?_append,
      List.findSome?_singleton]
    cases rest.reverse.findSome? (outcome? sid) <;> rfl

/-- Those signals are left bound that the last edits of their ids bind. -/
theorem findSome?_outcome?_iff :
    edits.reverse.findSome? (outcome? s.id) = some (some s.value) ↔ Leave edits s := by
  rw [List.findSome?_eq_some_iff]
  constructor
  · intro ⟨later, e, earlier, hparts, he, hlater⟩
    rw [outcome?_eq_some_some_iff] at he
    subst he
    refine ⟨earlier.reverse, later.reverse, ?_, fun e he => ?_⟩
    · rw [List.reverse_eq_iff] at hparts
      simp [hparts]
    · exact outcome?_eq_none_iff.mp (hlater e (List.mem_reverse.mp he))
  · intro ⟨past, rest, hparts, hrest⟩
    refine ⟨rest.reverse, .bind s, past.reverse, by simp [hparts],
      outcome?_eq_some_some_iff.mpr rfl, fun e he => ?_⟩
    exact outcome?_eq_none_iff.mpr (hrest e (List.mem_reverse.mp he))

/-- In a context that had no signals, those are bound that the edits leave so. -/
theorem getElem?_signals_eq_some_iff (h : c.signals = ∅) :
    (applyAll edits c).2.signals[s.id]? = some s.value ↔ Leave edits s := by
  rw [getElem?_signals_applyAll, h, ExtTreeMap.getElem?_empty, ← findSome?_outcome?_iff]
  cases edits.reverse.findSome? (outcome? s.id) <;> simp

/-- Edits of an id that is not bound in the end might as well not have been made. -/
theorem signals_applyAll_filter (h : c.signals = ∅) (hsid : ∀ value, ¬ Leave edits ⟨sid, value⟩) :
    (applyAll (edits.filter (¬ ·.Touches sid)) c).2.signals = (applyAll edits c).2.signals := by
  refine ExtTreeMap.ext_getElem? fun id => ?_
  -- The id itself ends up unbound either way; to the others the edits left out do nothing.
  by_cases hid : id = sid
  · subst hid
    have hunbound : (applyAll edits c).2.signals[id]? = none :=
      Option.eq_none_iff_forall_ne_some.mpr fun value hvalue =>
        hsid value ((getElem?_signals_eq_some_iff (s := ⟨id, value⟩) h).mp hvalue)
    have huntouched :
        (edits.filter (¬ ·.Touches id)).reverse.findSome? (outcome? id) = none :=
      List.findSome?_eq_none_iff.mpr fun e he => by
        simpa [outcome?_eq_none_iff] using (List.mem_filter.mp (List.mem_reverse.mp he)).2
    rw [hunbound, getElem?_signals_applyAll, huntouched, h]
    rfl
  · rw [getElem?_signals_applyAll, getElem?_signals_applyAll, ← List.getLast?_filterMap,
      ← List.getLast?_filterMap, List.filterMap_filter]
    congr 3
    funext e
    split
    next => rfl
    next htouched =>
      have htouches : e.Touches sid := by simpa using htouched
      exact (outcome?_eq_none_iff.mpr fun h => hid (h.eq htouches)).symm

end Edit

/-! ### Tokens -/

namespace Assembler
variable {Hook : Type} {a : Assembler} {content key stem : String} {c : Context Hook}
  {id : ContextId}

/-- The keys that are no signal's. -/
def fixedKeys : List String := ["context_id", "disconnected", "head", "foot", "content"]

theorem mem_fixedTokens : key ∈ a.fixedTokens content id ↔ key ∈ fixedKeys := by
  simp [fixedTokens, fixedKeys, ExtTreeMap.mem_ofList]

theorem isSome_shown? {s : Signal} : (s.shown? key).isSome ↔
    key = "signal." ++ stemOf s.id ∨ key = "signal_id." ++ stemOf s.id := by
  rw [Signal.shown?]
  split
  next hid => simp [hid]
  next hid =>
    split
    next hvalue => simp [hvalue]
    next hvalue => simp [hid, hvalue]

theorem shown?_of_mem_fixedKeys (h : key ∈ fixedKeys) (s : Signal) : s.shown? key = none := by
  refine Option.not_isSome_iff_eq_none.mp fun hsome => ?_
  simp only [fixedKeys, List.mem_cons, List.not_mem_nil, or_false] at h
  rcases isSome_shown?.mp hsome with heq | heq <;>
    rcases h with rfl | rfl | rfl | rfl | rfl <;> simpa using congrArg String.toList heq

theorem getElem?_tokens_of_mem_fixedKeys (h : key ∈ fixedKeys) :
    (a.tokens content c id)[key]? = (a.fixedTokens content id)[key]? := by
  have hnone : c.boundSignals.reverse.findSome? (·.shown? key) = none :=
    List.findSome?_eq_none_iff.mpr fun s _ => shown?_of_mem_fixedKeys h s
  rw [getElem?_tokens, hnone, Option.none_or]

theorem mem_tokens : key ∈ a.tokens content c id ↔ key ∈ fixedKeys ∨
    ∃ s ∈ c.boundSignals, key = "signal." ++ stemOf s.id ∨ key = "signal_id." ++ stemOf s.id := by
  rw [← ExtTreeMap.isSome_getElem?_iff_mem, getElem?_tokens, Option.isSome_or, Bool.or_eq_true,
    ExtTreeMap.isSome_getElem?_iff_mem, mem_fixedTokens, List.findSome?_isSome_iff, or_comm]
  simp only [List.mem_reverse, isSome_shown?]

theorem shown?_of_stem_ne {s : Signal} (h : stemOf s.id ≠ stem)
    (hkey : key = "signal." ++ stem ∨ key = "signal_id." ++ stem) : s.shown? key = none := by
  refine Option.not_isSome_iff_eq_none.mp fun hsome => ?_
  rcases hkey with rfl | rfl <;> rcases isSome_shown?.mp hsome with heq | heq
  · exact h ((String.append_right_inj "signal.").mp heq).symm
  · exact Signal.value_key_ne_id_key _ _ heq
  · exact Signal.value_key_ne_id_key _ _ heq.symm
  · exact h ((String.append_right_inj "signal_id.").mp heq).symm

/-- From the greatest id down there is a first bound signal with the stem. -/
theorem exists_first (h : ∃ s ∈ c.boundSignals, stemOf s.id = stem) :
    ∃ later s earlier, c.boundSignals.reverse = later ++ s :: earlier ∧ stemOf s.id = stem ∧
      ∀ other ∈ later, stemOf other.id ≠ stem := by
  have hsome : (c.boundSignals.reverse.find? (stemOf ·.id = stem)).isSome := by
    rw [List.find?_isSome]
    simpa using h
  obtain ⟨s, hfound⟩ := Option.isSome_iff_exists.mp hsome
  obtain ⟨hstem, later, earlier, hparts, hlater⟩ := List.find?_eq_some_iff_append.mp hfound
  exact ⟨later, s, earlier, hparts, by simpa using hstem, by simpa using hlater⟩

/-- It is the one that is shown. -/
theorem getElem?_tokens_of_first {later earlier : List Signal} {s : Signal}
    (hparts : c.boundSignals.reverse = later ++ s :: earlier) (hstem : stemOf s.id = stem)
    (hlater : ∀ other ∈ later, stemOf other.id ≠ stem)
    (hkey : key = "signal." ++ stem ∨ key = "signal_id." ++ stem) :
    (a.tokens content c id)[key]? = s.shown? key := by
  have hnone : later.findSome? (·.shown? key) = none :=
    List.findSome?_eq_none_iff.mpr fun other hother =>
      shown?_of_stem_ne (hlater other hother) hkey
  have hsome : (s.shown? key).isSome := isSome_shown?.mpr (hstem ▸ hkey)
  have hfirst : (s :: earlier).findSome? (·.shown? key) = s.shown? key :=
    List.findSome?_cons_of_isSome hsome
  rw [getElem?_tokens, hparts, List.findSome?_append, hnone, Option.none_or, hfirst,
    Option.or_of_isSome hsome]

/-- Of the bound signals with a stem the one with the greatest id stands under both keys. -/
theorem exists_shown (h : ∃ s ∈ c.boundSignals, stemOf s.id = stem) :
    ∃ s ∈ c.boundSignals, stemOf s.id = stem ∧
      (∀ other ∈ c.boundSignals, stemOf other.id = stem → other = s ∨ other.id < s.id) ∧
      (a.tokens content c id)["signal." ++ stem]? = some s.value.text ∧
      (a.tokens content c id)["signal_id." ++ stem]? = some s.id := by
  obtain ⟨later, s, earlier, hparts, hstem, hlater⟩ := exists_first h
  have hmem (other : Signal) :
      other ∈ c.boundSignals ↔ other ∈ later ∨ other = s ∨ other ∈ earlier := by
    rw [← List.mem_reverse, hparts, List.mem_append, List.mem_cons]
  have hsorted : (later ++ s :: earlier).Pairwise fun a b => b.id < a.id :=
    hparts ▸ List.pairwise_reverse.mpr c.boundSignals_sorted
  refine ⟨s, (hmem s).mpr (.inr (.inl rfl)), hstem, fun other hother hsame => ?_, ?_, ?_⟩
  · rcases (hmem other).mp hother with hother | rfl | hother
    · exact absurd hsame (hlater other hother)
    · exact .inl rfl
    · exact .inr (List.rel_of_pairwise_cons (List.pairwise_append.mp hsorted).2.1 hother)
  · rw [getElem?_tokens_of_first hparts hstem hlater (.inl rfl), ← hstem, s.shown?_value]
  · rw [getElem?_tokens_of_first hparts hstem hlater (.inr rfl), ← hstem, Signal.shown?,
      if_pos rfl]

/-- A table of tokens that shows the signals which edits leave bound, and besides them what an
assembler shows anyway. -/
structure Tabulates (a : Assembler) (content : String) (id : ContextId) (edits : List Edit)
    (table : ExtTreeMap String String) : Prop where
  keys : ∀ key, key ∈ table ↔ key ∈ fixedKeys ∨ ∃ s stem, Edit.Leave edits s ∧
    HasStem s.id stem ∧ (key = "signal." ++ stem ∨ key = "signal_id." ++ stem)
  fixed : table["context_id"]? = some id ∧ table["disconnected"]? = some "false" ∧
    table["head"]? = some ("\n".intercalate a.head) ∧
    table["foot"]? = some ("\n".intercalate a.foot) ∧ table["content"]? = some content
  /-- The two keys of a stem show one signal, the one with the greatest id. -/
  shown : ∀ stem, (∃ s, Edit.Leave edits s ∧ HasStem s.id stem) →
    ∃ s, Edit.Leave edits s ∧ HasStem s.id stem ∧
      (∀ other, Edit.Leave edits other → HasStem other.id stem →
        other = s ∨ Text.bytes other.id < Text.bytes s.id) ∧
      table["signal." ++ stem]? = some s.value.text ∧ table["signal_id." ++ stem]? = some s.id

/-- **The tokens follow what is bound.** Whatever edits a context without signals has gone
through, its tokens are the five fixed ones, with their own values, and for each stem of a
signal that is still bound the value and the id of one such signal, whose id is the greatest in
the order of bytes. An id that is not bound in the end makes no difference. -/
theorem tokens_follow (a : Assembler) (content : String) (id : ContextId) (c : Context Hook)
    (edits : List Edit) (h : c.signals = ∅) :
    a.Tabulates content id edits (a.tokens content (Edit.applyAll edits c).2 id) ∧
    ∀ sid, (∀ value, ¬ Edit.Leave edits ⟨sid, value⟩) →
      a.tokens content (Edit.applyAll edits c).2 id =
        a.tokens content (Edit.applyAll (edits.filter (¬ ·.Touches sid)) c).2 id := by
  have hbound (s : Signal) : s ∈ (Edit.applyAll edits c).2.boundSignals ↔ Edit.Leave edits s :=
    Context.mem_boundSignals.trans (Edit.getElem?_signals_eq_some_iff h)
  refine ⟨⟨fun key => ?_, ?_, fun stem hstem => ?_⟩, fun sid hsid => ?_⟩
  -- The keys, the fixed values, the signals shown, and an id that is not bound.
  · simp [mem_tokens, hbound, hasStem_iff]
  · simp (disch := decide) only [getElem?_tokens_of_mem_fixedKeys]
    simp [fixedTokens, ExtTreeMap.ofList_eq_insertMany_empty, ExtTreeMap.insertMany_cons,
      ExtTreeMap.getElem_insert]
  · simp only [hasStem_iff, ← hbound] at hstem ⊢
    obtain ⟨s, hs, hsame, hgreatest, hvalue, hid⟩ := exists_shown hstem
    refine ⟨s, hs, hsame, fun other hother hstem => ?_, hvalue, hid⟩
    exact (hgreatest other hother hstem).imp_right Text.bytes_lt_bytes.mpr
  · rw [tokens, tokens, Context.boundSignals, Context.boundSignals,
      Edit.signals_applyAll_filter h hsid]

/-- Edits that bind signals with one stem, one of them twice, signals without a stem or with
that of another key, and one signal that is unbound again. -/
def history : List Edit :=
  [.bind ⟨"n#1", .ofNat 1⟩, .bind ⟨"n#2", .ofNat 2⟩, .bind ⟨"n", .ofNat 0⟩, .bind ⟨"#", .null⟩,
    .bind ⟨"content", .ofNat 3⟩, .bind ⟨"_id.n", .ofNat 4⟩, .bind ⟨"n#2", .ofNat 5⟩,
    .bind ⟨"n#3", .ofNat 6⟩, .bind ⟨"é#1", .ofNat 7⟩, .unbind "n#3"]

/-- The signal that is shown for its stem carries its last value, none takes the place of the
fragment, and the one that is unbound again leaves nothing behind. -/
theorem tokens_follow_history :
    let c : Context Unit := {id := "a", route := "/", session := "s"}
    let table := (default : Assembler).tokens "<p>" (Edit.applyAll history c).2 "a"
    c.signals = ∅ ∧ (default : Assembler).Tabulates "<p>" "a" history table ∧
    table = (default : Assembler).tokens "<p>"
      (Edit.applyAll (history.filter (¬ ·.Touches "n#3")) c).2 "a" ∧
    table["content"]? = some "<p>" ∧ table["signal.content"]? = some "3" ∧
    table["signal.n"]? = some "5" ∧ table["signal_id.n"]? = some "n#2" ∧
    table["signal._id.n"]? = some "4" ∧ table["signal."]? = some "null" := by
  intro c table
  obtain ⟨htabulates, hunbound⟩ := tokens_follow default "<p>" "a" c history rfl
  have hnone : (Edit.applyAll history c).2.signals["n#3"]? = none := rfl
  have hleft : ∀ value, ¬ Edit.Leave history ⟨"n#3", value⟩ := fun value h =>
    nomatch hnone.symm.trans ((Edit.getElem?_signals_eq_some_iff rfl).mpr h)
  refine ⟨rfl, htabulates, hunbound "n#3" hleft, ?_⟩
  decide +kernel

end Assembler
end SharedViews

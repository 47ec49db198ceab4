import SharedViews.Document
import Mathlib.Data.List.Sort
import Mathlib.Data.String.Basic
import Mathlib.Logic.Function.Basic

/-! What the tokens of a shell stand for.

A signal shows its value and its id under keys that are made of its stem; among signals
with one stem the last in the order of the ids is shown. So the value of one signal reaches
one key at most (`tokens_bind`), and the fragment has a key of its own (`tokens_content`). -/
namespace SharedViews
open Std

/-- The name in a signal's id. -/
def stemOf (id : String) : String := (Signal.mk id .null).stem

namespace Signal
variable {s : Signal} {key : String}

/-- What a signal shows under a key. -/
def shown? (s : Signal) (key : String) : Option String :=
  if key = "signal_id." ++ stemOf s.id then some s.id
  else if key = "signal." ++ stemOf s.id then some s.value.text
  else none

theorem value_key_ne_id_key (stem other : String) : "signal." ++ stem ≠ "signal_id." ++ other := by
  intro h
  simpa using congrArg String.toList h

theorem shown?_content (s : Signal) : s.shown? "content" = none := by
  have hid : "content" ≠ "signal_id." ++ stemOf s.id := fun h => by
    simpa using congrArg String.toList h
  have hvalue : "content" ≠ "signal." ++ stemOf s.id := fun h => by
    simpa using congrArg String.toList h
  rw [shown?, if_neg hid, if_neg hvalue]

theorem shown?_value (s : Signal) : s.shown? ("signal." ++ stemOf s.id) = some s.value.text := by
  rw [shown?, if_neg (value_key_ne_id_key _ _), if_pos rfl]

theorem shown?_value_of_ne {stem : String} (h : stemOf s.id ≠ stem) :
    s.shown? ("signal." ++ stem) = none := by
  have hvalue : "signal." ++ stem ≠ "signal." ++ stemOf s.id := fun heq =>
    h ((String.append_right_inj "signal.").mp heq).symm
  rw [shown?, if_neg (value_key_ne_id_key _ _), if_neg hvalue]

/-- Elsewhere than under its stem a signal's value makes no difference. -/
theorem shown?_of_ne (h : key ≠ "signal." ++ stemOf s.id) (value : Json) :
    ({s with value} : Signal).shown? key = s.shown? key := by
  simp [shown?, h]

end Signal

namespace Context
variable {Hook : Type} {c : Context Hook} {s : Signal} {sid : String}

/-- No signal that is bound in the context hides the one with this id. -/
def Shows (c : Context Hook) (sid : String) : Prop :=
  ∀ s ∈ c.boundSignals, stemOf s.id = stemOf sid → s.id ≤ sid

instance (c : Context Hook) (sid : String) : Decidable (c.Shows sid) :=
  inferInstanceAs (Decidable (∀ s ∈ c.boundSignals, _))

theorem mem_boundSignals : s ∈ c.boundSignals ↔ c.signals[s.id]? = some s.value := by
  rw [← ExtTreeMap.mem_toList_iff_getElem?_eq_some]
  constructor
  · intro h
    obtain ⟨⟨id, value⟩, hmem, rfl⟩ := List.mem_map.mp h
    exact hmem
  · exact fun h => List.mem_map.mpr ⟨_, h, rfl⟩

theorem boundSignals_sorted (c : Context Hook) :
    c.boundSignals.Pairwise fun a b => a.id < b.id := by
  refine List.pairwise_map.mpr (c.signals.ordered_keys_toList.imp fun h => ?_)
  exact compareOfLessAndEq_eq_lt.mp h

/-- A bound signal stands between those with smaller and those with greater ids. -/
theorem boundSignals_bind (c : Context Hook) (s : Signal) :
    (c.bind s).boundSignals =
      c.boundSignals.filter (·.id < s.id) ++ s :: c.boundSignals.filter (s.id < ·.id) := by
  -- Both lists are in the order of the ids, so it is enough that they have the same members.
  have : Antisymm fun a b : Signal => a.id < b.id := ⟨fun _ _ h h' => absurd h' (String.lt_asymm h)⟩
  have : Irrefl fun a b : Signal => a.id < b.id := ⟨fun a => String.lt_irrefl a.id⟩
  refine (c.bind s).boundSignals_sorted.eq_of_mem_iff ?_ fun other => ?_
  · refine List.pairwise_append.mpr ⟨c.boundSignals_sorted.filter _,
      List.pairwise_cons.mpr ⟨fun b hb => ?_, c.boundSignals_sorted.filter _⟩, fun a ha b hb => ?_⟩
    · simpa using (List.mem_filter.mp hb).2
    · have hlt : a.id < s.id := by simpa using (List.mem_filter.mp ha).2
      rcases List.mem_cons.mp hb with rfl | hb
      · exact hlt
      · exact String.lt_trans hlt (by simpa using (List.mem_filter.mp hb).2)
  · have hbind : (c.bind s).signals[other.id]? =
        if s.id = other.id then some s.value else c.signals[other.id]? := by
      simp [bind, ExtTreeMap.getElem?_insert]
    rw [mem_boundSignals, hbind]
    simp only [List.mem_append, List.mem_cons, List.mem_filter, mem_boundSignals, decide_eq_true_eq]
    by_cases hid : s.id = other.id
    · have hsame : other = s ↔ s.value = other.value := by
        refine ⟨fun heq => heq ▸ rfl, fun hvalue => ?_⟩
        show Signal.mk other.id other.value = s
        rw [← hid, ← hvalue]
      have hlt : ¬ other.id < s.id := hid ▸ String.lt_irrefl s.id
      have hgt : ¬ s.id < other.id := hid ▸ String.lt_irrefl s.id
      simp only [if_pos hid, hlt, hgt, hsame, Option.some.injEq, and_false, false_or, or_false]
    · have hne : other ≠ s := fun heq => hid (heq ▸ rfl)
      rcases Std.lt_trichotomy other.id s.id with hlt | heq | hgt
      · simp only [hid, if_false, hne, hlt, String.lt_asymm hlt, and_true, and_false, or_false]
      · exact absurd heq.symm hid
      · simp only [hid, if_false, hne, hgt, String.lt_asymm hgt, and_true, and_false, false_or]

/-- A signal that is bound is no other for being bound again. -/
theorem bind_self (h : s ∈ c.boundSignals) : c.bind s = c := by
  have hsignals : c.signals.insert s.id s.value = c.signals := by
    refine ExtTreeMap.ext_getElem? fun id => ?_
    rw [ExtTreeMap.getElem?_insert]
    split
    next heq => rw [← LawfulEqCmp.eq_of_compare heq, mem_boundSignals.mp h]
    next => rfl
  rw [bind, hsignals]

end Context

namespace Assembler
variable {Hook : Type} {table : ExtTreeMap String String}

theorem getElem?_addSignal (table : ExtTreeMap String String) (s : Signal) (key : String) :
    (addSignal table s)[key]? = (s.shown? key).or table[key]? := by
  have hid : "signal_id." ++ s.stem = key ↔ key = "signal_id." ++ stemOf s.id := eq_comm
  have hvalue : "signal." ++ s.stem = key ↔ key = "signal." ++ stemOf s.id := eq_comm
  simp only [addSignal, ExtTreeMap.getElem?_insert, LawfulEqCmp.compare_eq_iff_eq, hid, hvalue,
    Signal.shown?]
  split
  · rfl
  · split <;> rfl

/-- The last signal that shows anything under a key is the one that counts. -/
theorem getElem?_foldl_addSignal (signals : List Signal) (table : ExtTreeMap String String)
    (key : String) : (signals.foldl addSignal table)[key]? =
      (signals.reverse.findSome? (·.shown? key)).or table[key]? := by
  induction signals generalizing table with
  | nil => rfl
  | cons s rest ih =>
    rw [List.foldl_cons, ih, getElem?_addSignal, List.reverse_cons, List.findSome?_append,
      List.findSome?_singleton, Option.or_assoc]

variable (a : Assembler) (content : String) (c : Context Hook) (id : ContextId)

/-- What stands under the keys that are no signal's. -/
def fixedTokens : ExtTreeMap String String :=
  .ofList [
    ("context_id", id),
    ("disconnected", "false"),
    ("head", "\n".intercalate a.head),
    ("foot", "\n".intercalate a.foot),
    ("content", content)]

theorem getElem?_tokens (key : String) : (a.tokens content c id)[key]? =
    (c.boundSignals.reverse.findSome? (·.shown? key)).or (a.fixedTokens content id)[key]? :=
  getElem?_foldl_addSignal c.boundSignals (a.fixedTokens content id) key

/-- The fragment stands under one key, and nowhere else. -/
theorem tokens_content :
    (fun key => (a.tokens content c id)[key]?) =
      Function.update (fun key => (a.tokens "" c id)[key]?) "content" (some content) := by
  funext key
  by_cases hkey : key = "content"
  · have hshown : c.boundSignals.reverse.findSome? (·.shown? "content") = none :=
      List.findSome?_eq_none_iff.mpr fun s _ => s.shown?_content
    subst hkey
    rw [Function.update_self, getElem?_tokens, hshown]
    simp [fixedTokens, ExtTreeMap.ofList_eq_insertMany_empty, ExtTreeMap.insertMany_cons]
  · rw [Function.update_of_ne hkey, getElem?_tokens, getElem?_tokens]
    simp [fixedTokens, ExtTreeMap.ofList_eq_insertMany_empty, ExtTreeMap.insertMany_cons,
      ExtTreeMap.getElem?_insert, Ne.symm hkey]

/-- A signal is hidden by those with greater ids, and hides those with smaller ones. -/
theorem getElem?_tokens_bind (s : Signal) (key : String) :
    (a.tokens content (c.bind s) id)[key]? =
      ((c.boundSignals.filter (s.id < ·.id)).reverse.findSome? (·.shown? key)).or
        ((s.shown? key).or
          (((c.boundSignals.filter (·.id < s.id)).reverse.findSome? (·.shown? key)).or
            (a.fixedTokens content id)[key]?)) := by
  rw [getElem?_tokens, Context.boundSignals_bind, List.reverse_append, List.reverse_cons,
    List.findSome?_append, List.findSome?_append, List.findSome?_singleton]
  simp only [Option.or_assoc]

/-- Among the signals with greater ids one shows its value in place of this one's, unless
this one is shown itself. -/
theorem later_eq_none_iff {sid : String} :
    (c.boundSignals.filter (sid < ·.id)).reverse.findSome? (·.shown? ("signal." ++ stemOf sid)) =
      none ↔ c.Shows sid := by
  rw [List.findSome?_eq_none_iff]
  constructor
  · intro hnone s hs hstem
    refine String.not_lt.mp fun hlt => ?_
    have hmem : s ∈ c.boundSignals.filter (sid < ·.id) :=
      List.mem_filter.mpr ⟨hs, decide_eq_true hlt⟩
    have hshown := hnone s (List.mem_reverse.mpr hmem)
    rw [← hstem, s.shown?_value] at hshown
    cases hshown
  · intro hshows s hs
    obtain ⟨hmem, hlt⟩ := List.mem_filter.mp (List.mem_reverse.mp hs)
    refine Signal.shown?_value_of_ne fun hstem => ?_
    exact String.not_lt.mpr (hshows s hmem hstem) (by simpa using hlt)

/-- The value of a signal stands under the key of its stem unless another signal hides it,
and nowhere else. -/
theorem tokens_bind (sid : String) (value : Json) :
    (fun key => (a.tokens content (c.bind ⟨sid, value⟩) id)[key]?) =
      if c.Shows sid then
        Function.update (fun key => (a.tokens content (c.bind ⟨sid, .null⟩) id)[key]?)
          ("signal." ++ stemOf sid) (some value.text)
      else fun key => (a.tokens content (c.bind ⟨sid, .null⟩) id)[key]? := by
  funext key
  -- Under the key of the stem it counts who hides whom; elsewhere the value is not looked at.
  by_cases hkey : key = "signal." ++ stemOf sid
  · subst hkey
    split
    next hshows =>
      rw [Function.update_self, getElem?_tokens_bind, (later_eq_none_iff c).mpr hshows,
        Signal.shown?_value ⟨sid, value⟩]
      rfl
    next hhidden =>
      have hlater := Option.isSome_iff_ne_none.mpr (mt (later_eq_none_iff c).mp hhidden)
      simp only [getElem?_tokens_bind, Option.or_of_isSome hlater]
  · have hsame : (Signal.mk sid value).shown? key = (Signal.mk sid .null).shown? key :=
      Signal.shown?_of_ne (s := ⟨sid, .null⟩) hkey value
    have hkept : (a.tokens content (c.bind ⟨sid, value⟩) id)[key]? =
        (a.tokens content (c.bind ⟨sid, .null⟩) id)[key]? := by
      rw [getElem?_tokens_bind, getElem?_tokens_bind, hsame]
    split
    · rw [hkept, Function.update_of_ne hkey]
    · exact hkept

end Assembler
end SharedViews

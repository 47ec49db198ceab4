import SharedViews.Proofs.Scope.Membership
import Mathlib.Data.Finset.Card

/-! Membership and the roll.

The roll is who belongs where, written down as one finite set of pairs: joining adds a pair,
leaving takes one away, and removing a context takes all of its pairs. Membership kept from
both sides goes along with the roll call by call (`records_step`), so that after any calls it
answers what the roll would, and lists what the roll holds (`follows_roll`). -/
namespace SharedViews
open Std

/-- The list names the elements of the set in order, each once. -/
def Lists {α : Type} [Ord α] (l : List α) (s : Finset α) : Prop :=
  l.Pairwise (fun a b => compare a b = .lt) ∧ ∀ x, x ∈ l ↔ x ∈ s

theorem Lists.length_eq {α : Type} [Ord α] [TransOrd α] [DecidableEq α] {l : List α} {s : Finset α}
    (h : Lists l s) : l.length = s.card := by
  have hnodup : l.Nodup := h.1.imp fun hlt heq => by
    rw [heq, compare_self] at hlt
    cases hlt
  rw [← List.toFinset_card_of_nodup hnodup]
  exact congrArg Finset.card (Finset.ext fun x => by rw [List.mem_toFinset, h.2])

/-- A change of membership that is asked for. -/
inductive Enrolment
  | join (scope : Scope) (id : ContextId)
  | leave (scope : Scope) (id : ContextId)
  | removeAll (id : ContextId)

/-- What it answers. -/
inductive Enrolment.Answer
  | flag (value : Bool)
  | emptied (scopes : List Scope)

/-- Who belongs where, the scope first. -/
abbrev Roll := Finset (Scope × ContextId)

namespace Roll
variable {R : Roll} {scope : Scope} {id : ContextId}

def members (R : Roll) (scope : Scope) : Finset ContextId :=
  (R.filter (·.1 = scope)).image Prod.snd

def scopes (R : Roll) (id : ContextId) : Finset Scope := (R.filter (·.2 = id)).image Prod.fst

def occupied (R : Roll) : Finset Scope := R.image Prod.fst

theorem mem_members : id ∈ R.members scope ↔ (scope, id) ∈ R := by
  simp [members]

theorem mem_scopes : scope ∈ R.scopes id ↔ (scope, id) ∈ R := by
  simp [scopes]

theorem mem_occupied : scope ∈ R.occupied ↔ ∃ id, (scope, id) ∈ R := by
  simp [occupied]

/-- A context is the only member if it is one and nobody else is. -/
theorem members_eq_singleton_iff :
    R.members scope = {id} ↔ (scope, id) ∈ R ∧ ¬ ∃ x, id ≠ x ∧ (scope, x) ∈ R := by
  simp only [Finset.eq_singleton_iff_unique_mem, mem_members]
  refine and_congr_right fun _ => ⟨?_, ?_⟩
  · rintro hall ⟨x, hne, hx⟩
    exact hne (hall x hx).symm
  · intro hnone x hx
    by_contra hne
    exact hnone ⟨x, Ne.symm hne, hx⟩

/-- The tab scope has no pairs. -/
def next (R : Roll) : Enrolment → Roll
  | .join scope id => if scope = .tab then R else insert (scope, id) R
  | .leave scope id => R.erase (scope, id)
  | .removeAll id => R.filter (·.2 ≠ id)

theorem mem_next_join {pair : Scope × ContextId} :
    pair ∈ R.next (.join scope id) ↔ (scope ≠ .tab ∧ pair = (scope, id)) ∨ pair ∈ R := by
  by_cases htab : scope = .tab
  · simp [next, htab]
  · simp [next, htab]

/-- What the roll has to say to it: whether the pair is new, whether the last member leaves,
which scopes lose their only member. -/
def Answers (R : Roll) : Enrolment → Enrolment.Answer → Prop
  | .join scope id, .flag value => value = true ↔ scope ≠ .tab ∧ (scope, id) ∉ R
  | .leave scope id, .flag value => value = true ↔ R.members scope = {id}
  | .removeAll id, .emptied scopes =>
    Lists scopes ((R.scopes id).filter fun scope => R.members scope = {id})
  | _, _ => False

/-- The roll after the changes, from an empty one. -/
def after (changes : List Enrolment) : Roll := changes.foldl next ∅

theorem not_mem_tab (changes : List Enrolment) (id : ContextId) :
    (Scope.tab, id) ∉ after changes := by
  unfold after
  have hempty : (Scope.tab, id) ∉ (∅ : Roll) := Finset.notMem_empty _
  generalize (∅ : Roll) = R at hempty
  induction changes generalizing R with
  | nil => exact hempty
  | cons change rest ih =>
    refine ih (R := R.next change) ?_
    cases change with
    | join scope x =>
      rw [mem_next_join]
      rintro (⟨htab, heq⟩ | hold)
      · exact htab (congrArg Prod.fst heq).symm
      · exact hempty hold
    | leave scope x => exact fun hmem => hempty (Finset.mem_of_mem_erase hmem)
    | removeAll x => exact fun hmem => hempty (Finset.mem_of_mem_filter _ hmem)

end Roll

namespace Membership
variable {m : Membership} {R : Roll} {scope : Scope} {id x : ContextId}

def step (m : Membership) : Enrolment → Enrolment.Answer × Membership
  | .join scope id => let (new, m) := m.join scope id; (.flag new, m)
  | .leave scope id => let (emptied, m) := m.leave scope id; (.flag emptied, m)
  | .removeAll id => let (emptied, m) := m.removeAll id; (.emptied emptied, m)

/-- Membership after the changes, from an empty one. -/
def after (changes : List Enrolment) : Membership :=
  changes.foldl (fun m change => (m.step change).2) empty

/-- Membership is sound, and has the pairs of the roll. -/
structure Records (m : Membership) (R : Roll) : Prop where
  sound : m.Sound
  pairs : ∀ id scope, m.Belongs id scope ↔ (scope, id) ∈ R

/-! ### One change -/

theorem isShared_iff : scope.isShared = true ↔ scope ≠ .tab := by
  cases scope <;> simp [Scope.isShared]

theorem Records.answers_join (h : m.Records R) (scope : Scope) (id : ContextId) :
    (m.join scope id).1 = true ↔ scope ≠ .tab ∧ (scope, id) ∉ R := by
  have hpair : (m.members.of scope).contains id = true ↔ (scope, id) ∈ R :=
    ExtTreeSet.contains_iff_mem.trans (h.pairs id scope)
  rw [← isShared_iff, ← hpair, Bool.not_eq_true]
  unfold join
  split
  next hshared => rw [Bool.not_eq_true', and_iff_right hshared]
  next hprivate => simp [hprivate]

theorem Records.join (h : m.Records R) (scope : Scope) (id : ContextId) :
    (m.join scope id).2.Records (R.next (.join scope id)) := by
  refine ⟨h.sound.join scope id, fun x other => ?_⟩
  rw [belongs_join, h.pairs, isShared_iff, Roll.mem_next_join]
  simp [eq_comm]

theorem Records.leave (h : m.Records R) (scope : Scope) (id : ContextId) :
    (m.leave scope id).2.Records (R.next (.leave scope id)) := by
  refine ⟨h.sound.leave scope id, fun x other => ?_⟩
  rw [belongs_leave, h.pairs]
  simp [Roll.next, eq_comm]

theorem Records.answers_leave (h : m.Records R) (scope : Scope) (id : ContextId) :
    (m.leave scope id).1 = true ↔ R.members scope = {id} := by
  rw [h.sound.leave_emptied, Roll.members_eq_singleton_iff, h.pairs]
  simp [Occupied, belongs_leave, h.pairs]

theorem Records.removeAll (h : m.Records R) (id : ContextId) :
    (m.removeAll id).2.Records (R.next (.removeAll id)) := by
  refine ⟨h.sound.removeAll id, fun x other => ?_⟩
  rw [h.sound.belongs_removeAll, h.pairs]
  simp [Roll.next, eq_comm, and_comm]

theorem Records.answers_removeAll (h : m.Records R) (id : ContextId) :
    Lists (m.removeAll id).1 ((R.scopes id).filter fun scope => R.members scope = {id}) := by
  constructor
  · have hsorted : (m.scopesOf id).Pairwise fun a b => compare a b = .lt :=
      ExtTreeSet.ordered_toList
    exact hsorted.filter _
  · intro scope
    rw [h.sound.removeAll_emptied, Finset.mem_filter, Roll.mem_scopes,
      Roll.members_eq_singleton_iff, h.pairs]
    simp [Occupied, h.sound.belongs_removeAll, h.pairs]

/-- A change is answered as the roll has it, and made in both. -/
theorem records_step (h : m.Records R) (change : Enrolment) :
    R.Answers change (m.step change).1 ∧ (m.step change).2.Records (R.next change) := by
  cases change with
  | join scope id => exact ⟨h.answers_join scope id, h.join scope id⟩
  | leave scope id => exact ⟨h.answers_leave scope id, h.leave scope id⟩
  | removeAll id => exact ⟨h.answers_removeAll id, h.removeAll id⟩

theorem records_empty : empty.Records ∅ :=
  ⟨sound_empty, fun id scope => by simp [empty, Belongs, Groups.of]⟩

theorem records_after (changes : List Enrolment) :
    (after changes).Records (Roll.after changes) := by
  unfold after Roll.after
  have hempty := records_empty
  generalize empty = m at hempty
  generalize (∅ : Roll) = R at hempty
  induction changes generalizing m R with
  | nil => exact hempty
  | cons change rest ih => exact ih _ _ (records_step hempty change).2

/-! ### What is listed -/

theorem Records.lists_membersOf (h : m.Records R) (scope : Scope) :
    Lists (m.membersOf scope) (R.members scope) :=
  ⟨ExtTreeSet.ordered_toList, fun id =>
    ExtTreeSet.mem_toList.trans ((h.pairs id scope).trans Roll.mem_members.symm)⟩

theorem Records.lists_scopesOf (h : m.Records R) (id : ContextId) :
    Lists (m.scopesOf id) (R.scopes id) :=
  ⟨ExtTreeSet.ordered_toList, fun scope =>
    (h.sound.mem_scopesOf id scope).trans ((h.pairs id scope).trans Roll.mem_scopes.symm)⟩

theorem Records.countOf_eq (h : m.Records R) (scope : Scope) :
    m.countOf scope = (R.members scope).card :=
  ExtTreeSet.length_toList.symm.trans (h.lists_membersOf scope).length_eq

theorem Records.lists_occupiedScopes (h : m.Records R) : Lists m.occupiedScopes R.occupied := by
  refine ⟨ExtTreeMap.ordered_keys, fun scope => ?_⟩
  rw [occupiedScopes, ExtTreeMap.mem_keys, h.sound.occupied_iff, Roll.mem_occupied]
  exact exists_congr fun id => h.pairs id scope

/-- **Membership is a finite relation.** After any changes, whatever change comes next is
answered as the roll has it, and the lists of members and of scopes are those of the roll, in
order and without repetition. The roll has no pair of the tab scope. The two tables are
inverse to each other, and no group is empty. -/
theorem follows_roll (changes : List Enrolment) :
    let m := after changes
    let R := Roll.after changes
    (∀ change, R.Answers change (m.step change).1 ∧
      Roll.after (changes ++ [change]) = R.next change ∧
      after (changes ++ [change]) = (m.step change).2) ∧
    (∀ id, (Scope.tab, id) ∉ R) ∧
    (∀ scope, Lists (m.membersOf scope) (R.members scope) ∧
      m.countOf scope = (R.members scope).card) ∧
    (∀ id, Lists (m.scopesOf id) (R.scopes id)) ∧
    Lists m.occupiedScopes R.occupied ∧
    (∀ id scope, scope ∈ m.byContext.of id ↔ id ∈ m.members.of scope) ∧
    (∀ scope ∈ m.members, m.members.of scope ≠ ∅) ∧
    ∀ id ∈ m.byContext, m.byContext.of id ≠ ∅ := by
  intro m R
  have h : m.Records R := records_after changes
  refine ⟨fun change => ⟨(records_step h change).1, List.foldl_append, List.foldl_append⟩,
    Roll.not_mem_tab changes, fun scope => ⟨h.lists_membersOf scope, h.countOf_eq scope⟩,
    h.lists_scopesOf, h.lists_occupiedScopes, h.sound.inverse, h.sound.members, h.sound.byContext⟩

/-- One context has a scope to itself and shares another; it joins the tab scope too, and
somebody leaves who was never there. -/
def crowd : List Enrolment :=
  [.join .tab "a", .join (.route "/") "a", .join .global "a", .join .global "b",
    .leave .global "c"]

/-- The context takes its own scope with it and leaves the shared one to the other. -/
theorem follows_roll_crowd :
    ((after crowd).step (.removeAll "a")).1 = .emptied [.route "/"] ∧
      Lists [.route "/"] (((Roll.after crowd).scopes "a").filter fun scope =>
        (Roll.after crowd).members scope = {"a"}) ∧
      Lists ["b"] ((Roll.after (crowd ++ [.removeAll "a"])).members .global) ∧
      (Scope.global ∈ (after crowd).members ∧ (after crowd).members.of .global ≠ ∅) ∧
      "b" ∈ (after crowd).byContext ∧ (after crowd).byContext.of "b" ≠ ∅ := by
  obtain ⟨hanswers, _, _, _, _, _, hmembers, hcontexts⟩ := follows_roll crowd
  obtain ⟨_, _, hlists, _⟩ := follows_roll (crowd ++ [.removeAll "a"])
  have hglobal : Scope.global ∈ (after crowd).members := by decide
  have hother : "b" ∈ (after crowd).byContext := by decide
  exact ⟨rfl, (hanswers (.removeAll "a")).1, (hlists .global).1, ⟨hglobal, hmembers _ hglobal⟩,
    hother, hcontexts _ hother⟩

end Membership
end SharedViews

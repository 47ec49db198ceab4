import Mathlib.Data.List.Induction

/-! Moments of a history.

A history is a list of events, the latest last, and a moment of it is the events before
that moment. Of two moments one is the earlier (`Comes.order`). What begins with some
events and lasts until others end it holds now if it began at some moment and has not
been ended since (`since_iff`); whoever knows what one event does to it knows its whole
past. -/
namespace SharedViews

section Moments
variable {α : Type} {es es' past later : List α} {e e' : α}

/-- The event comes right after `past`. -/
def Comes (es past : List α) (e : α) : Prop := past ++ [e] <+: es

theorem Comes.isPrefix (h : Comes es past e) : past <+: es := (List.prefix_append past [e]).trans h

theorem Comes.mono (h : Comes es past e) (hes : es <+: es') : Comes es' past e := h.trans hes

theorem comes_concat (es : List α) (e : α) : Comes (es ++ [e]) es e := List.prefix_refl _

theorem not_comes_nil : ¬ Comes [] past e := by
  intro h
  have hlen := h.length_le
  simp at hlen

theorem comes_concat_iff :
    Comes (es ++ [e]) past e' ↔ (past = es ∧ e' = e) ∨ Comes es past e' := by
  constructor
  · intro h
    rcases List.prefix_concat_iff.mp h with heq | hpre
    · obtain ⟨hpast, hevent⟩ := List.append_inj' heq rfl
      exact .inl ⟨hpast, by simpa using hevent⟩
    · exact .inr hpre
  · rintro (⟨rfl, rfl⟩ | h)
    · exact comes_concat past e'
    · exact h.mono (List.prefix_append es [e])

/-- One moment has one event. -/
theorem Comes.event_unique (h : Comes es past e) (h' : Comes es past e') : e = e' := by
  have hpre := List.prefix_of_prefix_length_le h h' (by simp)
  have heq := hpre.eq_of_length (by simp)
  simpa using heq

/-- Of two moments one is the earlier. -/
theorem Comes.order (h : Comes es past e) (h' : Comes es later e') :
    later <+: past ∨ Comes later past e := by
  rcases Nat.lt_or_ge past.length later.length with hlt | hle
  · right
    exact List.prefix_of_prefix_length_le h h'.isPrefix (by simpa using Nat.succ_le_of_lt hlt)
  · left
    exact List.prefix_of_prefix_length_le h'.isPrefix h.isPrefix hle

/-- Two moments of which neither is the earlier are one. -/
theorem Comes.same (h : Comes es past e) (h' : Comes es later e') (hearlier : ¬ Comes later past e)
    (hlater : ¬ Comes past later e') : past = later := by
  have hle := (h.order h').resolve_right hearlier
  have hle' := (h'.order h).resolve_right hlater
  exact hle'.eq_of_length_le hle.length_le

/-- No moment is before itself. -/
theorem not_comes_self : ¬ Comes past past e := by
  intro h
  have hlt := h.length_le
  rw [List.length_append, List.length_singleton] at hlt
  omega

theorem Comes.asymm (h : Comes later past e) : ¬ Comes past later e' := by
  intro h'
  have hlt := h.length_le
  have hlt' := h'.length_le
  rw [List.length_append, List.length_singleton] at hlt hlt'
  omega

/-- What no event undoes lasts. -/
theorem foldl_mono {σ : Type} {step : σ → α → σ} {P : σ → Prop} (hstep : ∀ s e, P s → P (step s e))
    {s : σ} (h : es <+: es') (hes : P (es.foldl step s)) : P (es'.foldl step s) := by
  obtain ⟨rest, rfl⟩ := h
  rw [List.foldl_append]
  generalize es.foldl step s = t at hes
  induction rest generalizing t with
  | nil => exact hes
  | cons e rest ih => exact ih (step t e) (hstep t e hes)

/-! ### Since -/

/-- It began with the event after `past`, and no event has ended it since. -/
def SinceMoment (Ends : List α → α → Prop) (es past : List α) (e : α) : Prop :=
  Comes es past e ∧ ∀ later e', Comes es later e' → Comes later past e → ¬ Ends later e'

/-- It began with some event, and no event has ended it since. -/
def Since (Begins Ends : List α → α → Prop) (es : List α) : Prop :=
  ∃ past e, SinceMoment Ends es past e ∧ Begins past e

variable {Begins Ends : List α → α → Prop}

theorem sinceMoment_concat : SinceMoment Ends (es ++ [e]) past e' ↔
    (past = es ∧ e' = e) ∨ (SinceMoment Ends es past e' ∧ ¬ Ends es e) := by
  constructor
  · rintro ⟨hcomes, hlasts⟩
    rcases comes_concat_iff.mp hcomes with hnow | hold
    · exact .inl hnow
    · refine .inr ⟨⟨hold, fun later x hx => ?_⟩, hlasts es e (comes_concat es e) hold⟩
      exact hlasts later x (hx.mono (List.prefix_append es [e]))
  · rintro (⟨rfl, rfl⟩ | ⟨⟨hold, hlasts⟩, hend⟩)
    · refine ⟨comes_concat past e', fun later x hx hlater => ?_⟩
      rcases comes_concat_iff.mp hx with ⟨rfl, rfl⟩ | hx
      · exact absurd hlater not_comes_self
      · exact absurd hx hlater.asymm
    · refine ⟨hold.mono (List.prefix_append es [e]), fun later x hx hlater => ?_⟩
      rcases comes_concat_iff.mp hx with ⟨rfl, rfl⟩ | hx
      · exact hend
      · exact hlasts later x hx hlater

/-- Either nothing has ended it since, or something did for the first time. -/
theorem sinceMoment_or_ends (Ends : List α → α → Prop) (h : Comes es past e) :
    SinceMoment Ends es past e ∨
      ∃ later e', Comes es later e' ∧ Ends later e' ∧ SinceMoment Ends later past e := by
  induction es using List.reverseRecOn with
  | nil => exact absurd h not_comes_nil
  | append_singleton es x ih =>
    have hpre := List.prefix_append es [x]
    rcases comes_concat_iff.mp h with ⟨rfl, rfl⟩ | hold
    · exact .inl (sinceMoment_concat.mpr (.inl ⟨rfl, rfl⟩))
    · rcases ih hold with hsince | ⟨later, e', hcomes, hend, hsince⟩
      · by_cases hend : Ends es x
        · exact .inr ⟨es, x, comes_concat es x, hend, hsince⟩
        · exact .inl (sinceMoment_concat.mpr (.inr ⟨hsince, hend⟩))
      · exact .inr ⟨later, e', hcomes.mono hpre, hend, hsince⟩

theorem SinceMoment.at_moment (h : SinceMoment Ends es past e) (hlater : Comes later past e)
    (hes : later <+: es) : SinceMoment Ends later past e :=
  ⟨hlater, fun moment e' hcomes => h.2 moment e' (hcomes.mono hes)⟩

theorem SinceMoment.weaken {Fewer : List α → α → Prop} (h : SinceMoment Ends es past e)
    (hfewer : ∀ later e', Fewer later e' → Ends later e') : SinceMoment Fewer es past e :=
  ⟨h.1, fun later e' hcomes hlater hend => h.2 later e' hcomes hlater (hfewer later e' hend)⟩

theorem since_nil : ¬ Since Begins Ends [] := by
  rintro ⟨_, _, ⟨hcomes, _⟩, _⟩
  exact not_comes_nil hcomes

theorem since_concat : Since Begins Ends (es ++ [e]) ↔
    Begins es e ∨ (Since Begins Ends es ∧ ¬ Ends es e) := by
  constructor
  · rintro ⟨past, e', hsince, hbegins⟩
    rcases sinceMoment_concat.mp hsince with ⟨rfl, rfl⟩ | ⟨hold, hend⟩
    · exact .inl hbegins
    · exact .inr ⟨⟨past, e', hold, hbegins⟩, hend⟩
  · rintro (hbegins | ⟨⟨past, e', hold, hbegins⟩, hend⟩)
    · exact ⟨es, e, sinceMoment_concat.mpr (.inl ⟨rfl, rfl⟩), hbegins⟩
    · exact ⟨past, e', sinceMoment_concat.mpr (.inr ⟨hold, hend⟩), hbegins⟩

/-- What an event begins or leaves alone unless it ends it holds since it began. -/
theorem since_iff {P : List α → Prop} (hnil : ¬ P [])
    (hstep : ∀ es e, P (es ++ [e]) ↔ Begins es e ∨ (P es ∧ ¬ Ends es e)) (es : List α) :
    P es ↔ Since Begins Ends es := by
  induction es using List.reverseRecOn with
  | nil => exact iff_of_false hnil since_nil
  | append_singleton es e ih => rw [hstep, since_concat, ih]

end Moments

end SharedViews

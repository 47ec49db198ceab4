import SharedViews.Text.Blank

/-! What trimming leaves.

A text has a core: around it there are only blanks, and at neither of its ends there is
one. Each text has one core, and trimming finds it (`isCore_iff`). -/
namespace SharedViews.Text
variable {cs core left right : List Char}

/-- Only blanks stand around the core, and it neither begins nor ends with one. -/
structure IsCore (cs core : List Char) : Prop where
  around : ∃ left right, cs = left ++ core ++ right ∧
    (∀ c ∈ left, isBlank c = true) ∧ ∀ c ∈ right, isBlank c = true
  first : ∀ c, core.head? = some c → isBlank c = false
  last : ∀ c, core.getLast? = some c → isBlank c = false

/-- A core is its own. -/
theorem IsCore.self (h : IsCore cs core) : IsCore core core :=
  ⟨⟨[], [], by simp, by simp, by simp⟩, h.first, h.last⟩

theorem IsCore.isInfix (h : IsCore cs core) : core <:+: cs := by
  obtain ⟨left, right, hcs, _⟩ := h.around
  exact ⟨left, right, hcs.symm⟩

/-! ### One end

The end of a text is the start of the reversed one. -/

theorem trimEnd_eq (cs : List Char) : trimEnd cs = (trimStart cs.reverse).reverse := rfl

theorem trimStart_eq_self (h : ∀ c, cs.head? = some c → isBlank c = false) :
    trimStart cs = cs := by
  cases cs with
  | nil => rfl
  | cons c cs => exact List.dropWhile_cons_of_neg (by simp [h c rfl])

theorem trimEnd_eq_self (h : ∀ c, cs.getLast? = some c → isBlank c = false) :
    trimEnd cs = cs := by
  have hstart : trimStart cs.reverse = cs.reverse :=
    trimStart_eq_self fun c hc => h c (by rwa [List.head?_reverse] at hc)
  rw [trimEnd_eq, hstart, List.reverse_reverse]

theorem trimStart_append (h : ∀ c ∈ left, isBlank c = true) (cs : List Char) :
    trimStart (left ++ cs) = trimStart cs := List.dropWhile_append_of_pos h

theorem trimEnd_append (h : ∀ c ∈ right, isBlank c = true) (cs : List Char) :
    trimEnd (cs ++ right) = trimEnd cs := by
  have hstart : trimStart (right.reverse ++ cs.reverse) = trimStart cs.reverse :=
    trimStart_append (by simpa using h) cs.reverse
  rw [trimEnd_eq, List.reverse_append, hstart, trimEnd_eq]

/-- What trimming takes away at the start. -/
theorem exists_trimStart (cs : List Char) :
    (∃ left, cs = left ++ trimStart cs ∧ ∀ c ∈ left, isBlank c = true) ∧
      ∀ c, (trimStart cs).head? = some c → isBlank c = false := by
  refine ⟨⟨cs.takeWhile isBlank, List.takeWhile_append_dropWhile.symm, ?_⟩, fun c hc => ?_⟩
  · exact List.all_eq_true.mp List.all_takeWhile
  · have hstop := List.head?_dropWhile_not isBlank cs
    rw [trimStart] at hc
    rwa [hc] at hstop

theorem exists_trimEnd (cs : List Char) :
    (∃ right, cs = trimEnd cs ++ right ∧ ∀ c ∈ right, isBlank c = true) ∧
      ∀ c, (trimEnd cs).getLast? = some c → isBlank c = false := by
  obtain ⟨⟨left, hcs, hleft⟩, hfirst⟩ := exists_trimStart cs.reverse
  refine ⟨⟨left.reverse, ?_, by simpa using hleft⟩, fun c hc => hfirst c ?_⟩
  · rw [trimEnd_eq, ← List.reverse_append, ← hcs, List.reverse_reverse]
  · rwa [trimEnd_eq, List.getLast?_reverse] at hc

/-! ### Both ends -/

theorem isCore_trimChars (cs : List Char) : IsCore cs (trimChars cs) := by
  obtain ⟨⟨left, hcs, hleft⟩, hfirst⟩ := exists_trimStart cs
  obtain ⟨⟨right, hstart, hright⟩, hlast⟩ := exists_trimEnd (trimStart cs)
  refine ⟨⟨left, right, ?_, hleft, hright⟩, fun c hc => hfirst c ?_, hlast⟩
  · rw [trimChars, List.append_assoc, ← hstart, ← hcs]
  · rw [hstart, List.head?_append, show (trimEnd (trimStart cs)).head? = some c from hc]
    rfl

theorem IsCore.trimChars_eq (h : IsCore cs core) : trimChars cs = core := by
  obtain ⟨left, right, rfl, hleft, hright⟩ := h.around
  rw [trimChars, List.append_assoc, trimStart_append hleft]
  cases core with
  | nil =>
    have hgone : trimStart right = [] := by
      rw [← List.append_nil right, trimStart_append hright]
      rfl
    rw [List.nil_append, hgone]
    rfl
  | cons c core =>
    have hstart : trimStart (c :: core ++ right) = c :: core ++ right := trimStart_eq_self h.first
    rw [hstart, trimEnd_append hright, trimEnd_eq_self h.last]

/-- Trimming leaves the core. -/
theorem isCore_iff : IsCore cs core ↔ trimChars cs = core :=
  ⟨IsCore.trimChars_eq, fun h => h ▸ isCore_trimChars cs⟩

end SharedViews.Text

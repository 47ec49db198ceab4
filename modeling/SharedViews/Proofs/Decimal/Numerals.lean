import SharedViews.Decimal.Layout

/-! What numbers are written with.

However a number is laid out, its text has digits, a point, a sign and what the format marks an
exponent with, and nothing else (`mem_layout`, `mem_fixed`). -/
namespace SharedViews.Decimal
variable {c : Char} {digits : List Char} {style : FloatStyle} {x : Dyadic}

theorem isDigit_of_mem_digitChars {n : Nat} (h : c ∈ digitChars n) : c.isDigit = true :=
  Nat.isDigit_of_mem_toDigits (by decide) (by decide) h

theorem newline_not_mem_digitChars (n : Nat) : '\n' ∉ digitChars n :=
  fun h => absurd (isDigit_of_mem_digitChars h) (by decide)

theorem mem_positional {place : Int} (h : c ∈ positional digits place) :
    c ∈ digits ∨ c = '0' ∨ c = '.' := by
  unfold positional at h
  split at h
  · simp only [List.mem_cons, List.mem_append, List.mem_replicate] at h
    rcases h with hzero | hpoint | hpadding | hdigit
    · exact .inr (.inl hzero)
    · exact .inr (.inr hpoint)
    · exact .inr (.inl hpadding.2)
    · exact .inl hdigit
  · simp only [List.mem_append, List.mem_cons, List.mem_replicate] at h
    rcases h with (htake | hpadding) | hpoint | hdrop
    · exact .inl (List.mem_of_mem_take htake)
    · exact .inr (.inl hpadding.2)
    · exact .inr (.inr hpoint)
    · split at hdrop
      · exact .inr (.inl (List.mem_singleton.mp hdrop))
      · exact .inl (List.mem_of_mem_drop hdrop)

theorem mem_scientific {exponent : Int} (h : c ∈ scientific style digits exponent) :
    c ∈ digits ∨ c.isDigit = true ∨ c = '.' ∨
      ∃ negative, c ∈ (style.exponentMark negative).toList := by
  unfold scientific at h
  simp only [List.mem_append] at h
  rcases h with ((hfirst | hrest) | hmark) | hexponent
  · exact .inl (List.mem_of_mem_take hfirst)
  · split at hrest
    · cases hrest
    · rcases List.mem_cons.mp hrest with hpoint | hdigit
      · exact .inr (.inr (.inl hpoint))
      · exact .inl (List.mem_of_mem_drop hdigit)
  · exact .inr (.inr (.inr ⟨_, hmark⟩))
  · exact .inr (.inl (isDigit_of_mem_digitChars hexponent))

theorem mem_sign {negative : Bool} (h : c ∈ if negative = true then ['-'] else []) : c = '-' := by
  split at h
  · exact List.mem_singleton.mp h
  · cases h

theorem mem_layout (h : c ∈ layout style x) : c.isDigit = true ∨ c = '-' ∨ c = '.' ∨
    ∃ negative, c ∈ (style.exponentMark negative).toList := by
  unfold layout at h
  dsimp only at h
  split at h
  · rcases List.mem_append.mp h with hsign | hzero
    · exact .inr (.inl (mem_sign hsign))
    · simp only [List.mem_cons, List.not_mem_nil, or_false] at hzero
      rcases hzero with rfl | hpoint | rfl
      · exact .inl rfl
      · exact .inr (.inr (.inl hpoint))
      · exact .inl rfl
  · split at h
    · rcases List.mem_append.mp h with hsign | hnumber
      · exact .inr (.inl (mem_sign hsign))
      · rcases mem_positional hnumber with hdigit | rfl | hpoint
        · exact .inl (isDigit_of_mem_digitChars hdigit)
        · exact .inl rfl
        · exact .inr (.inr (.inl hpoint))
    · rcases List.mem_append.mp h with hsign | hnumber
      · exact .inr (.inl (mem_sign hsign))
      · rcases mem_scientific hnumber with hdigit | hdigit | hpoint | hmark
        · exact .inl (isDigit_of_mem_digitChars hdigit)
        · exact .inl hdigit
        · exact .inr (.inr (.inl hpoint))
        · exact .inr (.inr (.inr hmark))

theorem mem_fixed {places : Nat} (h : c ∈ fixed places x) :
    c.isDigit = true ∨ c = '-' ∨ c = '.' := by
  unfold fixed at h
  dsimp only at h
  generalize roundQuotient _ _ = n at h
  have hpadded : ∀ d ∈ List.replicate (places + 1 - (digitChars n).length) '0' ++ digitChars n,
      d.isDigit = true := by
    intro d hd
    rcases List.mem_append.mp hd with hpadding | hdigit
    · rw [(List.mem_replicate.mp hpadding).2]
      rfl
    · exact isDigit_of_mem_digitChars hdigit
  rcases List.mem_append.mp h with hbefore | hbehind
  · rcases List.mem_append.mp hbefore with hsign | hdigit
    · exact .inr (.inl (mem_sign hsign))
    · exact .inl (hpadded c (List.mem_of_mem_take hdigit))
  · split at hbehind
    · cases hbehind
    · rcases List.mem_cons.mp hbehind with hpoint | hdigit
      · exact .inr (.inr hpoint)
      · exact .inl (hpadded c (List.mem_of_mem_drop hdigit))

end SharedViews.Decimal

import SharedViews.Json.Printer
import SharedViews.Proofs.Decimal.Numerals

/-! Data is written on one line.

A line break inside a string is escaped, and nothing else that is written has one: so the text
of data is one line, whatever the data (`newline_not_mem_chars`). -/
namespace SharedViews.Json

theorem newline_not_mem_intChars (n : Int) : '\n' ∉ Number.intChars n := by
  have hdigits := Decimal.newline_not_mem_digitChars n.natAbs
  unfold Number.intChars
  split
  · simp [hdigits]
  · exact hdigits

theorem newline_not_mem_floatChars (x : Float) : '\n' ∉ Number.floatChars x := by
  unfold Number.floatChars
  split
  · intro h
    rcases Decimal.mem_layout h with h | h | h | h
    · exact absurd h (by decide)
    · exact absurd h (by decide)
    · exact absurd h (by decide)
    · obtain ⟨negative, h⟩ := h
      cases negative <;> exact absurd h (by decide)
  · decide

theorem hexDigit_ne_newline : ∀ n < 16, hexDigit n ≠ '\n' := by decide

/-- The line break itself is one of the characters that are escaped. -/
theorem newline_not_mem_escapeChar (c : Char) : '\n' ∉ escapeChar c := by
  unfold escapeChar
  split; · decide
  split; · decide
  split; · decide
  split; · decide
  split; · decide
  next hbreak =>
    split; · decide
    split; · decide
    split
    next hcontrol =>
      have hhigh := hexDigit_ne_newline (c.toNat / 16) (by omega)
      have hlow := hexDigit_ne_newline (c.toNat % 16) (by omega)
      simp [hhigh.symm, hlow.symm]
    next => simpa using Ne.symm hbreak

theorem newline_not_mem_stringChars (s : String) : '\n' ∉ stringChars s := by
  simp [stringChars, newline_not_mem_escapeChar]

mutual

theorem newline_not_mem_chars : ∀ data : Json, '\n' ∉ data.chars
  | .null => by decide
  | .bool b => by cases b <;> decide
  | .number (.integer n) => newline_not_mem_intChars n
  | .number (.float x) => newline_not_mem_floatChars x
  | .string s => newline_not_mem_stringChars s
  | .array values => by
    have hvalues := newline_not_mem_elementChars values
    simp [chars, hvalues]
  | .object fields => by
    have hfields := newline_not_mem_memberChars fields
    simp [chars, hfields]

theorem newline_not_mem_elementChars : ∀ values : List Json, '\n' ∉ elementChars values
  | [] => by simp [elementChars]
  | [v] => newline_not_mem_chars v
  | v :: w :: rest => by
    have hv := newline_not_mem_chars v
    have hrest := newline_not_mem_elementChars (w :: rest)
    simp [elementChars, hv, hrest]

theorem newline_not_mem_memberChars : ∀ fields : List (String × Json), '\n' ∉ memberChars fields
  | [] => by simp [memberChars]
  | [(n, v)] => by
    have hv := newline_not_mem_chars v
    simp [memberChars, newline_not_mem_stringChars, hv]
  | (n, v) :: f :: rest => by
    have hv := newline_not_mem_chars v
    have hrest := newline_not_mem_memberChars (f :: rest)
    simp [memberChars, newline_not_mem_stringChars, hv, hrest]

end

end SharedViews.Json

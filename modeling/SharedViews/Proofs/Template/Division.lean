import SharedViews.Template.Substitution
import Mathlib.Data.List.Infix

/-! The tokens of a text.

A token runs from two opening braces to the next two closing ones. A text divides into its
tokens, what precedes each of them, and a rest in which none is closed. Every text has such a
division (`nonempty_division`), and what is read of the text is what the division names
(`Division.pieces_eq`). -/
namespace SharedViews.Template

/-- What opens a token. -/
def opening : List Char := ['\x7b', '\x7b']

/-- What closes a token. -/
def closing : List Char := ['\x7d', '\x7d']

/-- The characters before a first mark: followed by the mark, they hold no earlier one. -/
def UpTo (mark cs : List Char) : Prop :=
  ∀ before after, cs ++ mark = before ++ mark ++ after → after = []

/-- What precedes a token, and the token around what it holds. -/
def spell (part : List Char × List Char) : List Char :=
  part.1 ++ opening ++ part.2 ++ closing

/-- A text as its tokens divide it. -/
structure Division (source : List Char) where
  /-- What precedes each token, and what the token holds. -/
  parts : List (List Char × List Char)
  rest : List Char
  spells : parts.flatMap spell ++ rest = source
  upTo : ∀ p ∈ parts, UpTo opening p.1 ∧ UpTo closing p.2
  /-- In the rest no token is opened, or the first that is opened is not closed. -/
  unclosed : ¬ opening <:+: rest ∨
    ∃ before after, UpTo opening before ∧ rest = before ++ opening ++ after ∧ ¬ closing <:+: after

/-- The keys of the tokens, from left to right. -/
def Division.keys {source : List Char} (d : Division source) : List String :=
  d.parts.map fun p => String.ofList (Text.trimChars p.2)

/-! ### First marks

A mark is one character twice. Where it stands first is found one character at a time: it
begins here if this character and the next one are the mark's, and further on otherwise. -/

section Marks
variable {m c : Char} {cs : List Char}

theorem upTo_nil (m : Char) : UpTo [m, m] [] := by
  intro before after h
  have hlength := congrArg List.length h
  simp only [List.length_append, List.length_cons, List.length_nil] at hlength
  exact List.length_eq_zero_iff.mp (by omega)

theorem upTo_cons : UpTo [m, m] (c :: cs) ↔
    ¬ (c = m ∧ (cs ++ [m, m]).head? = some m) ∧ UpTo [m, m] cs := by
  constructor
  · intro h
    refine ⟨fun ⟨hc, hhead⟩ => ?_, fun before after heq => h (c :: before) after (by simp [heq])⟩
    -- A mark that begins here would have to be the last two characters.
    obtain ⟨tail, htail⟩ := List.head?_eq_some_iff.mp hhead
    have hnil : tail = [] := h [] tail (by simp [hc, htail])
    have hlength := congrArg List.length htail
    simp [hnil] at hlength
  · rintro ⟨hfirst, hcs⟩ before after heq
    cases before with
    | nil =>
      obtain ⟨hc, htail⟩ : c = m ∧ cs ++ [m, m] = m :: after := by simpa using heq
      exact absurd ⟨hc, by rw [htail]; rfl⟩ hfirst
    | cons b before => exact hcs before after (List.cons.inj heq).2

theorem infix_cons : [m, m] <:+: c :: cs ↔ (c = m ∧ cs.head? = some m) ∨ [m, m] <:+: cs := by
  rw [List.infix_cons_iff, List.cons_prefix_cons, eq_comm]
  cases cs with
  | nil => simp
  | cons d cs => simp [List.cons_prefix_cons, eq_comm]

/-- Where there is a mark there is a first one. -/
theorem exists_upTo (h : [m, m] <:+: cs) :
    ∃ before after, UpTo [m, m] before ∧ cs = before ++ [m, m] ++ after := by
  induction cs with
  | nil => simp at h
  | cons c cs ih =>
    by_cases hfirst : c = m ∧ cs.head? = some m
    · obtain ⟨tail, rfl⟩ := List.head?_eq_some_iff.mp hfirst.2
      exact ⟨[], tail, upTo_nil m, by rw [hfirst.1]; rfl⟩
    · obtain ⟨before, after, hbefore, rfl⟩ := ih ((infix_cons.mp h).resolve_left hfirst)
      refine ⟨c :: before, after, upTo_cons.mpr ⟨?_, hbefore⟩, rfl⟩
      rwa [List.head?_append_of_ne_nil _ (by simp)] at hfirst

end Marks

/-! ### Every text has a division -/

theorem nonempty_division (source : List Char) : Nonempty (Division source) := by
  -- What follows a closed token is shorter than the text, and has a division of its own.
  induction hlength : source.length using Nat.strong_induction_on generalizing source with
  | h n ih =>
    by_cases hopening : opening <:+: source
    · obtain ⟨before, after, hbefore, rfl⟩ := exists_upTo hopening
      by_cases hclosing : closing <:+: after
      · obtain ⟨held, tail, hheld, rfl⟩ := exists_upTo hclosing
        obtain ⟨d⟩ := ih tail.length (by rw [← hlength]; simp; omega) tail rfl
        refine ⟨⟨(before, held) :: d.parts, d.rest, ?_, ?_, d.unclosed⟩⟩
        · rw [List.flatMap_cons, List.append_assoc, d.spells]
          simp [spell, opening, closing]
        · exact List.forall_mem_cons.mpr ⟨⟨hbefore, hheld⟩, d.upTo⟩
      · exact ⟨⟨[], before ++ opening ++ after, rfl, by simp,
          .inr ⟨before, after, hbefore, rfl, hclosing⟩⟩⟩
    · exact ⟨⟨[], source, rfl, by simp, .inl hopening⟩⟩

/-! ### What is read -/

section Reading
variable {c : Char} {cs : List Char}

theorem pieces_none_cons (h : ¬ (c = '\x7b' ∧ cs.head? = some '\x7b')) :
    pieces none (c :: cs) = .char c :: pieces none cs := by
  rw [pieces]
  rintro rest rfl rfl
  exact h ⟨rfl, rfl⟩

theorem pieces_some_cons (h : ¬ (c = '\x7d' ∧ cs.head? = some '\x7d')) (inner : List Char) :
    pieces (some inner) (c :: cs) = pieces (some (c :: inner)) cs := by
  rw [pieces]
  rintro rest rfl rfl
  exact h ⟨rfl, rfl⟩

theorem pieces_opening (h : UpTo opening cs) (after : List Char) :
    pieces none (cs ++ opening ++ after) = cs.map .char ++ pieces (some []) after := by
  induction cs with
  | nil => rfl
  | cons c cs ih =>
    obtain ⟨hfirst, hcs⟩ := upTo_cons.mp h
    have hnext : ¬ (c = '\x7b' ∧ (cs ++ opening ++ after).head? = some '\x7b') := by
      rwa [List.head?_append_of_ne_nil _ (by simp [opening])]
    rw [List.cons_append, List.cons_append, pieces_none_cons hnext, ih hcs]
    rfl

theorem pieces_closing (h : UpTo closing cs) (inner after : List Char) :
    pieces (some inner) (cs ++ closing ++ after) =
      .token (inner.reverse ++ cs) :: pieces none after := by
  induction cs generalizing inner with
  | nil => simp [closing, pieces]
  | cons c cs ih =>
    obtain ⟨hfirst, hcs⟩ := upTo_cons.mp h
    have hnext : ¬ (c = '\x7d' ∧ (cs ++ closing ++ after).head? = some '\x7d') := by
      rwa [List.head?_append_of_ne_nil _ (by simp [closing])]
    rw [List.cons_append, List.cons_append, pieces_some_cons hnext, ih hcs]
    simp

theorem pieces_none_of_not_infix (h : ¬ opening <:+: cs) : pieces none cs = cs.map .char := by
  induction cs with
  | nil => simp [pieces]
  | cons c cs ih =>
    obtain ⟨hfirst, hcs⟩ := not_or.mp (mt infix_cons.mpr h)
    rw [pieces_none_cons hfirst, ih hcs]
    rfl

theorem pieces_some_of_not_infix (h : ¬ closing <:+: cs) (inner : List Char) :
    pieces (some inner) cs = (opening ++ (inner.reverse ++ cs)).map .char := by
  induction cs generalizing inner with
  | nil => simp [pieces, opening]
  | cons c cs ih =>
    obtain ⟨hfirst, hcs⟩ := not_or.mp (mt infix_cons.mpr h)
    rw [pieces_some_cons hfirst, ih hcs]
    simp

theorem pieces_spell {part : List Char × List Char}
    (h : UpTo opening part.1 ∧ UpTo closing part.2) (rest : List Char) :
    pieces none (spell part ++ rest) =
      (part.1.map .char ++ [.token part.2]) ++ pieces none rest := by
  have hopens := pieces_opening h.1 (part.2 ++ closing ++ rest)
  rw [pieces_closing h.2] at hopens
  simpa [spell] using hopens

theorem pieces_spells {parts : List (List Char × List Char)}
    (h : ∀ p ∈ parts, UpTo opening p.1 ∧ UpTo closing p.2) (rest : List Char) :
    pieces none (parts.flatMap spell ++ rest) =
      parts.flatMap (fun p => p.1.map .char ++ [.token p.2]) ++ pieces none rest := by
  induction parts with
  | nil => rfl
  | cons p parts ih =>
    obtain ⟨hp, hparts⟩ := List.forall_mem_cons.mp h
    rw [List.flatMap_cons, List.append_assoc, pieces_spell hp, ih hparts, List.flatMap_cons,
      List.append_assoc _ _ (pieces none rest)]

end Reading

namespace Division
variable {source : List Char}

theorem pieces_rest (d : Division source) : pieces none d.rest = d.rest.map .char := by
  rcases d.unclosed with hopening | ⟨before, after, hbefore, hrest, hclosing⟩
  · exact pieces_none_of_not_infix hopening
  · rw [hrest, pieces_opening hbefore, pieces_some_of_not_infix hclosing]
    simp

/-- **Reading follows the division.** -/
theorem pieces_eq (d : Division source) : pieces none source =
    d.parts.flatMap (fun p => p.1.map .char ++ [.token p.2]) ++ d.rest.map .char := by
  have hread := pieces_spells d.upTo d.rest
  rwa [d.spells, d.pieces_rest] at hread

end Division
end SharedViews.Template

import SharedViews.Proofs.Template.Division
import SharedViews.Proofs.Text.Trimming

/-! The text that comes of a division.

A text has one division, for it can be read back off the pieces (`division_unique`).
Filling the text goes along with it: what precedes the tokens and the rest stay as they are,
and in the place of each token stands the value under its key, or the token itself where
there is none (`substitute_follows`). -/
namespace SharedViews.Template
open Text (IsCore)

/-! ### A text has one division -/

section Unique
variable {before before' held held' rest rest' : List Char} {ps ps' : List Piece}
  {parts parts' : List (List Char × List Char)}

/-- Up to a token the pieces are characters. -/
theorem piece_token_inj
    (h : before.map Piece.char ++ .token held :: ps = before'.map .char ++ .token held' :: ps') :
    (before = before' ∧ held = held') ∧ ps = ps' := by
  induction before generalizing before' with
  | nil =>
    cases before' with
    | nil => simpa using h
    | cons c before' => simp at h
  | cons c before ih =>
    cases before' with
    | nil => simp at h
    | cons c' before' =>
      obtain ⟨hc, htail⟩ : c = c' ∧ _ := by simpa using h
      obtain ⟨⟨hbefore, hheld⟩, hps⟩ := ih htail
      exact ⟨⟨by rw [hc, hbefore], hheld⟩, hps⟩

/-- The pieces of a division. -/
def piecesOf (parts : List (List Char × List Char)) (rest : List Char) : List Piece :=
  parts.flatMap (fun p => p.1.map .char ++ [.token p.2]) ++ rest.map .char

theorem piecesOf_cons (p : List Char × List Char) (parts : List (List Char × List Char))
    (rest : List Char) :
    piecesOf (p :: parts) rest = p.1.map .char ++ .token p.2 :: piecesOf parts rest := by
  simp [piecesOf]

theorem map_char_ne_piecesOf_cons (p : List Char × List Char) :
    piecesOf [] rest ≠ piecesOf (p :: parts) rest' := by
  intro h
  have hmem : Piece.token p.2 ∈ piecesOf [] rest := by
    rw [h, piecesOf_cons]
    simp
  simp [piecesOf] at hmem

theorem piecesOf_inj (h : piecesOf parts rest = piecesOf parts' rest') :
    parts = parts' ∧ rest = rest' := by
  induction parts generalizing parts' with
  | nil =>
    cases parts' with
    | nil =>
      have hinj : Function.Injective Piece.char := fun _ _ heq => Piece.char.inj heq
      exact ⟨rfl, List.map_injective_iff.mpr hinj h⟩
    | cons p' parts' => exact absurd h (map_char_ne_piecesOf_cons p')
  | cons p parts ih =>
    cases parts' with
    | nil => exact absurd h.symm (map_char_ne_piecesOf_cons p)
    | cons p' parts' =>
      rw [piecesOf_cons, piecesOf_cons] at h
      obtain ⟨⟨hbefore, hheld⟩, htail⟩ := piece_token_inj h
      obtain ⟨hparts, hrest⟩ := ih htail
      exact ⟨by rw [hparts, Prod.ext hbefore hheld], hrest⟩

theorem division_unique {source : List Char} (d d' : Division source) : d = d' := by
  obtain ⟨hparts, hrest⟩ := piecesOf_inj (d.pieces_eq.symm.trans d'.pieces_eq)
  cases d
  cases d'
  subst hparts hrest
  rfl

end Unique

/-! ### What stands in the place of a token -/

/-- The value under the key of a token, which is what it holds without the blanks around it,
or the token as it was written. -/
inductive Stands (lookup : String → Option String) (held : List Char) : List Char → Prop
  | value {key value : String} (core : IsCore held key.toList) (known : lookup key = some value) :
      Stands lookup held value.toList
  | kept {key : String} (core : IsCore held key.toList) (unknown : lookup key = none) :
      Stands lookup held (opening ++ held ++ closing)

/-- The text that comes of the tokens, with what precedes each of them, and of a rest. -/
inductive Filled (lookup : String → Option String) :
    List (List Char × List Char) → List Char → List Char → Prop
  | rest (rest : List Char) : Filled lookup [] rest rest
  | token {before held text rest out : List Char} {parts : List (List Char × List Char)}
      (stands : Stands lookup held text) :
      Filled lookup parts rest out →
      Filled lookup ((before, held) :: parts) rest (before ++ text ++ out)

section Filling
variable {lookup other : String → Option String} {key : String} {held text out rest : List Char}
  {parts : List (List Char × List Char)}

theorem key_eq (h : IsCore held key.toList) : String.ofList (Text.trimChars held) = key := by
  rw [Text.isCore_iff.mp h, String.ofList_toList]

theorem stands_iff : Stands lookup held text ↔ (Piece.token held).fill lookup = text := by
  constructor
  · intro h
    cases h with
    | value core known => simp only [Piece.fill, key_eq core, known]
    | kept core unknown => simp [Piece.fill, key_eq core, unknown, written, opening, closing]
  · rintro rfl
    have hcore : IsCore held (String.ofList (Text.trimChars held)).toList := by
      rw [String.toList_ofList]
      exact Text.isCore_trimChars held
    unfold Piece.fill
    dsimp only
    split
    next value hvalue => exact .value hcore hvalue
    next hnone =>
      have hkept := Stands.kept hcore hnone
      simpa [written, opening, closing] using hkept

theorem filled_iff : Filled lookup parts rest out ↔
    parts.flatMap (fun p => p.1 ++ (Piece.token p.2).fill lookup) ++ rest = out := by
  induction parts generalizing out with
  | nil =>
    constructor
    · intro h
      cases h
      rfl
    · rintro rfl
      exact .rest rest
  | cons p parts ih =>
    constructor
    · intro h
      cases h with
      | token stands filled => simp [stands_iff.mp stands, ← ih.mp filled]
    · rintro rfl
      have hstands : Stands lookup p.2 ((Piece.token p.2).fill lookup) := stands_iff.mpr rfl
      have hfilled : Filled lookup (p :: parts) rest
          (p.1 ++ (Piece.token p.2).fill lookup ++ _) := .token hstands (ih.mpr rfl)
      simpa using hfilled

theorem Division.substituteChars_eq {source : List Char} (d : Division source)
    (lookup : String → Option String) : substituteChars lookup source =
      d.parts.flatMap (fun p => p.1 ++ (Piece.token p.2).fill lookup) ++ d.rest := by
  rw [substituteChars, d.pieces_eq, List.flatMap_append, flatMap_map_char, List.flatMap_assoc]
  simp [flatMap_map_char]

/-- The key of a token neither begins nor ends with a blank and does not close a token. -/
theorem Division.key_of_mem {source : List Char} (d : Division source)
    {p : List Char × List Char} (hp : p ∈ d.parts) :
    IsCore (Text.trimChars p.2) (Text.trimChars p.2) ∧ ¬ closing <:+: Text.trimChars p.2 := by
  have hcore := Text.isCore_trimChars p.2
  refine ⟨hcore.self, fun hclosing => ?_⟩
  obtain ⟨before, after, hheld⟩ := hclosing.trans hcore.isInfix
  -- What a token holds would close it before its end.
  have hend := (d.upTo p hp).2 before (after ++ closing) (by rw [← hheld]; simp)
  simp [closing] at hend

/-- Keys that no token can have do not matter. -/
theorem substituteChars_congr (source : List Char)
    (h : ∀ key : String, IsCore key.toList key.toList → ¬ closing <:+: key.toList →
      lookup key = other key) :
    substituteChars lookup source = substituteChars other source := by
  obtain ⟨d⟩ := nonempty_division source
  have hfill : ∀ p ∈ d.parts, (Piece.token p.2).fill lookup = (Piece.token p.2).fill other := by
    intro p hp
    obtain ⟨hcore, hclosing⟩ := d.key_of_mem hp
    have hkey := h (String.ofList (Text.trimChars p.2)) (by simpa using hcore)
      (by simpa using hclosing)
    simp only [Piece.fill, hkey]
  rw [d.substituteChars_eq, d.substituteChars_eq]
  congr 1
  exact List.flatMap_congr fun p hp => by rw [hfill p hp]

end Filling

/-- **Filling follows the division.** Every text has one division into tokens, what precedes
them and a rest. Whatever the table, one text comes of the division: the value under the key
of each token in its place, or the token as it was written where the table has no such key,
and all else unchanged; and it is what substitution gives. So nothing is changed where the
table is empty, and keys with blanks at an end, or with two closing braces, do not
matter. -/
theorem substitute_follows (source : String) :
    (∃ d : Division source.toList, ∀ d', d' = d) ∧
    (∀ (d : Division source.toList) (lookup : String → Option String) (out : String),
      Filled lookup d.parts d.rest out.toList ↔ substitute lookup source = out) ∧
    substitute (fun _ => none) source = source ∧
    ∀ lookup other : String → Option String,
      (∀ key : String, IsCore key.toList key.toList → ¬ closing <:+: key.toList →
        lookup key = other key) → substitute lookup source = substitute other source := by
  obtain ⟨d⟩ := nonempty_division source.toList
  refine ⟨⟨d, fun d' => division_unique d' d⟩, fun d lookup out => ?_, substitute_none source,
    fun lookup other h => congrArg String.ofList (substituteChars_congr _ h)⟩
  rw [filled_iff, ← d.substituteChars_eq, substitute, ← String.toList_inj, String.toList_ofList]

/-- A text in which more than two braces stand together, and a token is not closed. -/
def tangled : String :=
  "\x7b\x7b\x7b a \x7d\x7d\x7d\x7b\x7b b \x7d\x7d\x7b\x7b a"

/-- A table with a value that would open a token. -/
def braced (key : String) : Option String := if key = "b" then some "\x7b\x7b" else none

/-- The first token holds a brace, and its key is unknown; the second one has its value, which
opens nothing. A value under a key with a blank makes no difference. -/
theorem substitute_follows_tangled :
    (∃ d : Division tangled.toList, (∀ d', d' = d) ∧
      d.parts = [([], "\x7b a ".toList), (['\x7d'], " b ".toList)] ∧
      d.rest = "\x7b\x7b a".toList) ∧
    substitute (fun key => if key = " b" then some "" else braced key) tangled =
      substitute braced tangled ∧
    substitute braced tangled = "\x7b\x7b\x7b a \x7d\x7d\x7d\x7b\x7b\x7b\x7b a" := by
  obtain ⟨⟨d, hd⟩, _, _, hkeys⟩ := substitute_follows tangled
  have hpieces : piecesOf d.parts d.rest =
      piecesOf [([], "\x7b a ".toList), (['\x7d'], " b ".toList)] "\x7b\x7b a".toList :=
    d.pieces_eq.symm.trans (by decide +kernel)
  refine ⟨⟨d, hd, piecesOf_inj hpieces⟩, hkeys _ _ fun key hcore _ => ?_, by decide +kernel⟩
  have hblank : key ≠ " b" := by
    rintro rfl
    exact absurd (hcore.first ' ' rfl) (by decide)
  exact if_neg hblank

end SharedViews.Template

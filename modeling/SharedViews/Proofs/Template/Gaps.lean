import SharedViews.Proofs.Template.Division
import Mathlib.Logic.Function.Basic

/-! What stands around the values of one key.

A filled text is the value of any one key set between gaps: what precedes the first token
with that key, what lies between two of them, and what follows the last. The gaps come from
the text and from the other keys, so they are the same for every value
(`substitute_update`). -/
namespace SharedViews.Template
variable {lookup : String → Option String} {key value : String}

/-- The key of a piece, if it is a token. -/
def Piece.key? : Piece → Option String
  | .char _ => none
  | .token inner => some (String.ofList (Text.trimChars inner))

/-- The keys that are read of a text, from left to right. -/
def keys (source : String) : List String := (pieces none source.toList).filterMap Piece.key?

theorem filterMap_key?_map_char (cs : List Char) :
    (cs.map Piece.char).filterMap Piece.key? = [] := by
  simp [List.filterMap_map, Piece.key?]

/-- The keys that are read are those of the division. -/
theorem Division.keys_eq {source : String} (d : Division source.toList) :
    Template.keys source = d.keys := by
  rw [Template.keys, d.pieces_eq, List.filterMap_append, filterMap_key?_map_char,
    List.append_nil, List.filterMap_flatMap, Division.keys, List.map_eq_flatMap]
  congr 1
  funext p
  rw [List.filterMap_append, filterMap_key?_map_char]
  rfl

namespace Piece

theorem fill_update_self {p : Piece} (h : p.key? = some key) :
    p.fill (Function.update lookup key (some value)) = value.toList := by
  cases p with
  | char c => cases h
  | token inner =>
    cases h
    simp [fill]

theorem fill_update_of_ne {p : Piece} (h : p.key? ≠ some key) :
    p.fill (Function.update lookup key (some value)) = p.fill lookup := by
  cases p with
  | char c => rfl
  | token inner =>
    have hne : String.ofList (Text.trimChars inner) ≠ key := fun heq => h (congrArg some heq)
    simp [fill, hne]

end Piece

/-- What stands before, between and after the tokens with the key. -/
def gaps (lookup : String → Option String) (key : String) : List Piece → List (List Char)
  | [] => [[]]
  | p :: rest =>
    -- A token with the key opens a gap; whatever else there is lengthens the one after it.
    if p.key? = some key then [] :: gaps lookup key rest
    else (gaps lookup key rest).modifyHead (p.fill lookup ++ ·)

/-- There is a gap on either side of each token with the key. -/
theorem length_gaps (lookup : String → Option String) (key : String) (ps : List Piece) :
    (gaps lookup key ps).length = (ps.filterMap Piece.key?).count key + 1 := by
  induction ps with
  | nil => rfl
  | cons p rest ih =>
    by_cases h : p.key? = some key
    · simp [gaps, h, ih]
    · rw [gaps, if_neg h, List.length_modifyHead, ih]
      cases hp : p.key? with
      | none => rw [List.filterMap_cons_none hp]
      | some other =>
        have hne : other ≠ key := fun heq => h (heq ▸ hp)
        rw [List.filterMap_cons_some hp, List.count_cons_of_ne hne]

/-- The value set between the gaps is the text with the key filled by it. -/
theorem intercalate_gaps (lookup : String → Option String) (key value : String) (ps : List Piece) :
    value.toList.intercalate (gaps lookup key ps) =
      ps.flatMap (·.fill (Function.update lookup key (some value))) := by
  induction ps with
  | nil => rfl
  | cons p rest ih =>
    obtain ⟨first, others, hgaps⟩ : ∃ first others, gaps lookup key rest = first :: others :=
      List.exists_cons_of_length_eq_add_one (length_gaps lookup key rest)
    rw [hgaps] at ih
    rw [List.flatMap_cons, ← ih]
    by_cases h : p.key? = some key
    · rw [gaps, if_pos h, hgaps, Piece.fill_update_self h]
      rfl
    · rw [gaps, if_neg h, hgaps, Piece.fill_update_of_ne h]
      cases others <;> simp

/-- With the values of one key still open, a text is the gaps around them. -/
theorem substitute_update (lookup : String → Option String) (key : String) {source : String}
    (d : Division source.toList) : ∃ ps : List String, ps.length = d.keys.count key + 1 ∧
      ∀ value, substitute (Function.update lookup key (some value)) source = value.intercalate ps := by
  refine ⟨(gaps lookup key (pieces none source.toList)).map String.ofList, ?_, fun value => ?_⟩
  · rw [List.length_map, length_gaps, ← d.keys_eq, keys]
  · rw [← String.toList_inj, String.toList_intercalate]
    simp [substitute, substituteChars, intercalate_gaps, Function.comp_def]

end SharedViews.Template

import SharedViews.Document
import Mathlib.Data.List.Forall2
import Mathlib.Data.List.Infix

/-! Where a root tag stands.

A root tag is opened by its name, in whatever case, and a character that ends the name. The
search for one goes on behind each name that it finds, and misses nothing by that, because no
name begins inside another (`hasRootTag_iff`). So a text is a document of its own exactly if
a root tag is opened somewhere in it (`isWholeDocument_iff`), whatever stands around. -/
namespace SharedViews

/-! ### Letters of either case -/

/-- One letter in either case, or one character that is no letter. Only the letters from A to
Z have two cases. -/
def SameLetter (c d : Char) : Prop :=
  c = d ∨ (c.isUpper = true ∧ d.toNat = c.toNat + 32) ∨ (d.isUpper = true ∧ c.toNat = d.toNat + 32)

theorem isUpper_iff_val {c : Char} : c.isUpper = true ↔ 'A'.val ≤ c.val ∧ c.val ≤ 'Z'.val :=
  decide_eq_true_iff

theorem isUpper_iff (c : Char) : c.isUpper = true ↔ 65 ≤ c.toNat ∧ c.toNat ≤ 90 :=
  isUpper_iff_val.trans (and_congr UInt32.le_iff_toNat_le UInt32.le_iff_toNat_le)

theorem toNat_toLower (c : Char) :
    c.toLower.toNat = if c.isUpper = true then c.toNat + 32 else c.toNat := by
  unfold Char.toLower
  split
  next h =>
    have hupper : c.isUpper = true := isUpper_iff_val.mpr h
    have hle := ((isUpper_iff c).mp hupper).2
    rw [if_pos hupper]
    show (c.toNat + 32) % 2 ^ 32 = c.toNat + 32
    exact Nat.mod_eq_of_lt (by omega)
  next h => rw [if_neg (fun hupper => h (isUpper_iff_val.mp hupper))]

theorem toLower_of_not_isUpper {c : Char} (h : ¬ c.isUpper = true) : c.toLower = c := by
  rw [← Char.toNat_inj, toNat_toLower, if_neg h]

theorem sameLetter_iff {c d : Char} : SameLetter c d ↔ c.toLower = d.toLower := by
  rw [SameLetter, ← Char.toNat_inj, ← Char.toNat_inj, toNat_toLower, toNat_toLower]
  simp only [isUpper_iff]
  split <;> split <;> omega

theorem forall₂_sameLetter_iff {cs ds : List Char} :
    List.Forall₂ SameLetter cs ds ↔ cs.map Char.toLower = ds.map Char.toLower := by
  have hsame : SameLetter = fun c d => c.toLower = d.toLower :=
    funext₂ fun _ _ => propext sameLetter_iff
  rw [hsame, ← List.forall₂_eq_eq_eq, List.forall₂_map_left_iff, List.forall₂_map_right_iff]

/-! ### The search -/

/-- The name of a root tag, with what opens the tag. -/
def rootName : List Char := "<html".toList

section Search
variable {c next : Char} {cs : List Char}

theorem endsTagName_iff :
    endsTagName c = true ↔ c ∈ [' ', '\t', '\n', '\x0c', '\r', '>', '/'] := by
  simp [endsTagName, or_assoc]

/-- A name that does not begin at a character begins behind it, if at all. -/
theorem infix_cons_of_not_isPrefix (h : ¬ rootName <+: c :: cs) :
    rootName ++ [next] <:+: c :: cs ↔ rootName ++ [next] <:+: cs := by
  rw [List.infix_cons_iff, or_iff_right]
  exact fun hbegins => h ((List.prefix_append _ _).trans hbegins)

/-- A name begins with the character that opens a tag. -/
theorem not_isPrefix_of_ne (h : c ≠ '<') : ¬ rootName <+: c :: cs := by
  intro hbegins
  exact h (List.cons_prefix_cons.mp hbegins).1.symm

/-- Behind a name that is found the search goes on as if it had not been there. -/
theorem infix_rootName_append (rest : List Char) : rootName ++ [next] <:+: rootName ++ rest ↔
    rest.head? = some next ∨ rootName ++ [next] <:+: rest := by
  have hbehind : rootName ++ [next] <:+: 'h' :: 't' :: 'm' :: 'l' :: rest ↔
      rootName ++ [next] <:+: rest := by
    rw [infix_cons_of_not_isPrefix (not_isPrefix_of_ne (by decide)),
      infix_cons_of_not_isPrefix (not_isPrefix_of_ne (by decide)),
      infix_cons_of_not_isPrefix (not_isPrefix_of_ne (by decide)),
      infix_cons_of_not_isPrefix (not_isPrefix_of_ne (by decide))]
  have hhere : rootName ++ [next] <+: rootName ++ rest ↔ rest.head? = some next := by
    rw [List.prefix_append_right_inj]
    cases rest <;> simp [eq_comm]
  rw [← hbehind, ← hhere]
  exact List.infix_cons_iff

theorem hasRootTag_iff : hasRootTag cs = true ↔
    ∃ next, endsTagName next = true ∧ rootName ++ [next] <:+: cs := by
  fun_induction hasRootTag cs with
  | case1 => simp
  | case2 rest ih =>
    have hname : '<' :: 'h' :: 't' :: 'm' :: 'l' :: rest = rootName ++ rest := rfl
    rw [Bool.or_eq_true, ih, hname]
    simp only [infix_rootName_append, and_or_left, exists_or]
    refine or_congr_left ?_
    rw [Option.any_eq_true]
    exact exists_congr fun next => and_comm
  | case3 c rest hother ih =>
    have hnot : ¬ rootName <+: c :: rest := by
      intro hbegins
      obtain ⟨tail, htail⟩ := hbegins
      obtain ⟨hc, hrest⟩ := List.cons.inj htail
      exact hother tail hc.symm hrest.symm
    simp only [ih, infix_cons_of_not_isPrefix hnot]

end Search

/-! ### Either case -/

section Cases
variable {c : Char} {tag : List Char} {text other : String}

theorem toNat_lt_of_endsTagName (h : endsTagName c = true) : c.toNat < 65 := by
  have hall : ∀ d ∈ [' ', '\t', '\n', '\x0c', '\r', '>', '/'], d.toNat < 65 := by simp
  exact hall c (endsTagName_iff.mp h)

/-- What ends a name is no letter. -/
theorem endsTagName_toLower (c : Char) : endsTagName c.toLower = endsTagName c := by
  by_cases hupper : c.isUpper = true
  · have hbounds := (isUpper_iff c).mp hupper
    have hlower : c.toLower.toNat = c.toNat + 32 := by rw [toNat_toLower, if_pos hupper]
    have hc : ¬ endsTagName c = true := fun h => by
      have hlt := toNat_lt_of_endsTagName h
      omega
    have hcl : ¬ endsTagName c.toLower = true := fun h => by
      have hlt := toNat_lt_of_endsTagName h
      omega
    rw [Bool.not_eq_true] at hc hcl
    rw [hc, hcl]
  · rw [toLower_of_not_isUpper hupper]

/-- A root tag is opened by its name, in any case, and by a character that ends the name. -/
def OpensRoot (tag : List Char) : Prop :=
  ∃ name next, tag = name ++ [next] ∧ List.Forall₂ SameLetter name rootName ∧
    next ∈ [' ', '\t', '\n', '\x0c', '\r', '>', '/']

theorem opensRoot_iff : OpensRoot tag ↔
    ∃ next, endsTagName next = true ∧ rootName ++ [next] = tag.map Char.toLower := by
  have hlower : rootName.map Char.toLower = rootName := by decide
  constructor
  · intro h
    obtain ⟨name, next, rfl, hname, hnext⟩ := h
    refine ⟨next.toLower, by rwa [endsTagName_toLower, endsTagName_iff], ?_⟩
    rw [List.map_append, forall₂_sameLetter_iff.mp hname, hlower]
    rfl
  · intro h
    obtain ⟨next, hnext, htag⟩ := h
    obtain ⟨name, ending, rfl, hname, hending⟩ := List.map_eq_append_iff.mp htag.symm
    obtain ⟨last, rfl, rfl⟩ := List.map_eq_singleton_iff.mp hending
    refine ⟨name, last, rfl, forall₂_sameLetter_iff.mpr (hname.trans hlower.symm), ?_⟩
    rwa [← endsTagName_iff, ← endsTagName_toLower]

/-- A text is a document of its own if a root tag is opened in it. -/
theorem isWholeDocument_iff : isWholeDocument text = true ↔
    ∃ tag, OpensRoot tag ∧ tag <:+: text.toList := by
  simp only [isWholeDocument, hasRootTag_iff, List.infix_map_iff, opensRoot_iff]
  constructor
  · intro h
    obtain ⟨next, hnext, tag, hpart, htag⟩ := h
    exact ⟨tag, ⟨next, hnext, htag⟩, hpart⟩
  · intro h
    obtain ⟨tag, ⟨next, hnext, htag⟩, hpart⟩ := h
    exact ⟨next, hnext, tag, hpart, htag⟩

theorem isWholeDocument_of_infix (h : isWholeDocument text = true)
    (hpart : text.toList <:+: other.toList) : isWholeDocument other = true := by
  obtain ⟨tag, hopens, htag⟩ := isWholeDocument_iff.mp h
  exact isWholeDocument_iff.mpr ⟨tag, hopens, htag.trans hpart⟩

theorem isWholeDocument_of_sameLetters (h : List.Forall₂ SameLetter text.toList other.toList) :
    isWholeDocument other = isWholeDocument text := by
  rw [isWholeDocument, isWholeDocument, forall₂_sameLetter_iff.mp h]

end Cases

/-- **Root tags are found wherever they stand.** A text is a document of its own exactly if
somewhere in it stand the letters of the name, in whatever case, and right after them a
character that ends the name. So the case of its letters does not matter, nor does what
stands before and after it. -/
theorem root_tag_found (text : String) :
    (isWholeDocument text = true ↔ ∃ before name next after,
      text.toList = before ++ name ++ next :: after ∧
      List.Forall₂ SameLetter name "<html".toList ∧
      next ∈ [' ', '\t', '\n', '\x0c', '\r', '>', '/']) ∧
    (∀ other : String, List.Forall₂ SameLetter text.toList other.toList →
      isWholeDocument other = isWholeDocument text) ∧
    (isWholeDocument text = true →
      ∀ before after : String, isWholeDocument (before ++ text ++ after) = true) := by
  refine ⟨isWholeDocument_iff.trans ⟨?_, ?_⟩, fun _ => isWholeDocument_of_sameLetters,
    fun h before after => isWholeDocument_of_infix h ?_⟩
  · intro h
    obtain ⟨_, ⟨name, next, rfl, hname, hnext⟩, before, after, htext⟩ := h
    exact ⟨before, name, next, after, by rw [← htext]; simp, hname, hnext⟩
  · intro h
    obtain ⟨before, name, next, after, htext, hname, hnext⟩ := h
    exact ⟨name ++ [next], ⟨name, next, rfl, hname, hnext⟩, before, after, by rw [htext]; simp⟩
  · exact ⟨before.toList, after.toList, by simp⟩

/-- Two names in a row: the first one does not end, and the second is in upper case. -/
theorem root_tag_found_lookalike :
    List.Forall₂ SameLetter "<html<HTML/".toList "<HTML<html/".toList ∧
      isWholeDocument "<html<HTML/" = true ∧ isWholeDocument "<HTML<html/" = true ∧
      isWholeDocument ("<html-x><" ++ "<html<HTML/" ++ "html") = true := by
  obtain ⟨hfound, hcase, haround⟩ := root_tag_found "<html<HTML/"
  have hsame : List.Forall₂ SameLetter "<html<HTML/".toList "<HTML<html/".toList :=
    forall₂_sameLetter_iff.mpr (by decide)
  have hwhole : isWholeDocument "<html<HTML/" = true :=
    hfound.mpr ⟨"<html".toList, "<HTML".toList, '/', [], by decide,
      forall₂_sameLetter_iff.mpr (by decide), by decide⟩
  exact ⟨hsame, hwhole, (hcase _ hsame).trans hwhole, haround hwhole "<html-x><" "html"⟩

end SharedViews

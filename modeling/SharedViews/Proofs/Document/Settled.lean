import SharedViews.Proofs.Document.RootTag
import SharedViews.Proofs.Template.Filling

/-! Building a document again.

What stands outside the tokens of a shell stands in everything that is made with it
(`Division.infix_substituteChars`), so a root tag there makes a document of its own of any
fragment. Such a document is never put into a shell again: building settles at once
(`build_settles`). -/
namespace SharedViews
open Template (Division spell opening closing)

namespace Template

/-- What does not hold the character of a mark holds no mark. -/
theorem upTo_of_not_mem {m : Char} {cs : List Char} (h : m ∉ cs) : UpTo [m, m] cs := by
  induction cs with
  | nil => exact upTo_nil m
  | cons c cs ih =>
    obtain ⟨hc, hcs⟩ := not_or.mp (mt List.mem_cons.mpr h)
    exact upTo_cons.mpr ⟨fun hfirst => hc hfirst.1.symm, ih hcs⟩

namespace Division
variable {source tail piece : List Char} {part : List Char × List Char}

/-- A token, and what precedes it, put before a text. -/
def cons (part : List Char × List Char) (h : UpTo opening part.1 ∧ UpTo closing part.2)
    (d : Division tail) : Division (spell part ++ tail) where
  parts := part :: d.parts
  rest := d.rest
  spells := by rw [List.flatMap_cons, List.append_assoc, d.spells]
  upTo := List.forall_mem_cons.mpr ⟨h, d.upTo⟩
  unclosed := d.unclosed

/-- What stands before each token, and the rest. -/
def outside (d : Division source) : List (List Char) := d.parts.map Prod.fst ++ [d.rest]

/-- Outside the tokens there is a document of its own. -/
def HoldsRoot (d : Division source) : Prop :=
  ∃ piece ∈ d.outside, isWholeDocument (String.ofList piece) = true

/-- What precedes the first token is outside. -/
theorem mem_outside_of_spell (d : Division source) (hstart : spell part <+: source)
    (h : UpTo opening part.1 ∧ UpTo closing part.2) : part.1 ∈ d.outside := by
  obtain ⟨tail, rfl⟩ := hstart
  obtain ⟨rest⟩ := nonempty_division tail
  rw [division_unique d (rest.cons part h)]
  exact List.mem_cons_self

/-- Filling the tokens leaves what is outside of them in one piece. -/
theorem infix_substituteChars (d : Division source) (h : piece ∈ d.outside)
    (lookup : String → Option String) : piece <:+: substituteChars lookup source := by
  rw [d.substituteChars_eq]
  rcases List.mem_append.mp h with hbefore | hrest
  · obtain ⟨p, hp, rfl⟩ := List.mem_map.mp hbefore
    have hpart : p.1 ++ (Piece.token p.2).fill lookup <:+:
        d.parts.flatMap fun p => p.1 ++ (Piece.token p.2).fill lookup := by
      rw [List.flatMap_def]
      exact List.infix_of_mem_flatten (List.mem_map_of_mem hp)
    exact ((List.prefix_append _ _).isInfix.trans hpart).trans (List.prefix_append _ _).isInfix
  · rw [List.mem_singleton.mp hrest]
    exact (List.suffix_append _ _).isInfix

theorem HoldsRoot.substitute {shell : String} {d : Division shell.toList} (h : d.HoldsRoot)
    (lookup : String → Option String) : isWholeDocument (substitute lookup shell) = true := by
  obtain ⟨piece, hpiece, hwhole⟩ := h
  refine isWholeDocument_of_infix hwhole ?_
  rw [Template.substitute, String.toList_ofList, String.toList_ofList]
  exact d.infix_substituteChars hpiece lookup

end Division
end Template

theorem toList_isPrefix_append (s t : String) : s.toList <+: (s ++ t).toList := by
  rw [String.toList_append]
  exact List.prefix_append _ _

/-- The built-in shell has its root tag before its first token. -/
theorem holdsRoot_builtInShell (d : Division builtInShell.toList) : d.HoldsRoot := by
  have hhead : spell ("<!DOCTYPE html>\n<html>\n<head>\n<meta charset=\"utf-8\">\n".toList,
      " head ".toList) <+: ("<!DOCTYPE html>\n<html>\n<head>\n<meta charset=\"utf-8\">\n" ++
        "\x7b\x7b head \x7d\x7d\n</head>\n").toList :=
    ⟨"\n</head>\n".toList, by decide +kernel⟩
  have hshell : _ <+: builtInShell.toList := ((hhead.trans (toList_isPrefix_append _ _)).trans
    (toList_isPrefix_append _ _)).trans (toList_isPrefix_append _ _)
  refine ⟨_, d.mem_outside_of_spell hshell ⟨?_, ?_⟩, by decide +kernel⟩
  · exact Template.upTo_of_not_mem (by decide +kernel)
  · exact Template.upTo_of_not_mem (by decide +kernel)

namespace Assembler
variable {Hook : Type}

/-- A document of its own needs no shell. -/
theorem build_of_isWholeDocument {content : String} (h : isWholeDocument content = true)
    (a : Assembler) (files : Files) (c : Context Hook) (id : ContextId) :
    a.build files content c id = .ok content := if_pos h

theorem build_of_readShell {a : Assembler} {files : Files} {shell content : String}
    (h : isWholeDocument content = false) (hshell : a.readShell files = .ok shell)
    (c : Context Hook) (id : ContextId) :
    a.build files content c id = .ok (a.wrap shell content c id) := by
  rw [build, h, hshell]
  rfl

/-- **Building settles at once.** The built-in shell has a root tag outside its tokens. With
any shell that has one, whatever pages inject, every fragment, context and id give a document
of its own; and that is what building gives of it again, with any context, id and injections,
and any shell, be it readable or not. -/
theorem build_settles :
    (∃ d : Division builtInShell.toList, d.HoldsRoot) ∧
    ∀ (a : Assembler) (files : Files) (shell : String) (d : Division shell.toList),
      a.readShell files = .ok shell → d.HoldsRoot →
      ∀ (content : String) (c : Context Hook) (id : ContextId), ∃ document,
        a.build files content c id = .ok document ∧ isWholeDocument document = true ∧
        ∀ (again : Assembler) (found : Files) (other : Context Hook) (name : ContextId),
          again.build found document other name = .ok document := by
  obtain ⟨division⟩ := Template.nonempty_division builtInShell.toList
  refine ⟨⟨division, holdsRoot_builtInShell division⟩,
    fun a files shell d hshell hroot content c id => ?_⟩
  obtain ⟨document, hbuild, hwhole⟩ : ∃ document,
      a.build files content c id = .ok document ∧ isWholeDocument document = true := by
    cases hcontent : isWholeDocument content with
    | true => exact ⟨content, build_of_isWholeDocument hcontent a files c id, hcontent⟩
    | false => exact ⟨_, build_of_readShell hcontent hshell c id, hroot.substitute _⟩
  exact ⟨document, hbuild, hwhole, build_of_isWholeDocument hwhole⟩

/-- A shell that has its root tag after all its tokens, before one that is not closed. -/
def leaning : String := "\x7b\x7b content \x7d\x7d<HTML\n>\x7b\x7b"

/-- A bare name before the root tag, and then no shell to be read. -/
theorem build_settles_leaning :
    (∃ d : Division leaning.toList, d.HoldsRoot) ∧
    (⟨.inline leaning, [], []⟩ : Assembler).build (fun _ => .error .notFound) "<html"
      ({id := "a", route := "/", session := "s"} : Context Unit) "a" =
        .ok "<html<HTML\n>\x7b\x7b" ∧
    (⟨.path "shell", ["x"], []⟩ : Assembler).build (fun _ => .error .notFound)
      "<html<HTML\n>\x7b\x7b" ({id := "b", route := "/", session := "s"} : Context Unit) "b" =
        .ok "<html<HTML\n>\x7b\x7b" := by
  obtain ⟨d⟩ := Template.nonempty_division leaning.toList
  have hpieces : Template.piecesOf d.parts d.rest =
      Template.piecesOf [([], " content ".toList)] "<HTML\n>\x7b\x7b".toList :=
    d.pieces_eq.symm.trans (by decide +kernel)
  have hroot : d.HoldsRoot := by
    refine ⟨d.rest, by simp [Division.outside], ?_⟩
    rw [(Template.piecesOf_inj hpieces).2]
    decide +kernel
  have hfirst : (⟨.inline leaning, [], []⟩ : Assembler).build (fun _ => .error .notFound) "<html"
      ({id := "a", route := "/", session := "s"} : Context Unit) "a" =
        .ok "<html<HTML\n>\x7b\x7b" := by decide +kernel
  obtain ⟨document, hbuild, _, hagain⟩ := build_settles.2 ⟨.inline leaning, [], []⟩
    (fun _ => .error .notFound) leaning d rfl hroot "<html"
    ({id := "a", route := "/", session := "s"} : Context Unit) "a"
  obtain rfl : document = "<html<HTML\n>\x7b\x7b" := Except.ok.inj (hbuild.symm.trans hfirst)
  exact ⟨⟨d, hroot⟩, hfirst, hagain _ _ _ _⟩

end Assembler
end SharedViews

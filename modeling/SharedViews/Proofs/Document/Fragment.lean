import SharedViews.Proofs.Document.Tokens
import SharedViews.Proofs.Template.Gaps

/-! What a fragment can reach.

A shell is read before the fragment is put in, so the fragment stands in the document once
for each of its tokens and everything around it is as it would be around any other
fragment. The same goes for the value of each signal. -/
namespace SharedViews.Assembler
variable {Hook : Type}

theorem wrap_content (a : Assembler) {shell : String} (d : Template.Division shell.toList)
    (c : Context Hook) (id : ContextId) :
    ∃ ps : List String, ps.length = d.keys.count "content" + 1 ∧
      ∀ content, a.wrap shell content c id = content.intercalate ps := by
  obtain ⟨ps, hlength, hps⟩ :=
    Template.substitute_update (fun key => (a.tokens "" c id)[key]?) "content" d
  refine ⟨ps, hlength, fun content => ?_⟩
  rw [← hps, ← tokens_content]
  rfl

theorem wrap_bind_of_shows (a : Assembler) {shell : String} (d : Template.Division shell.toList)
    (content : String) {c : Context Hook} (id : ContextId) {sid : String} (h : c.Shows sid) :
    ∃ ps : List String, ps.length = d.keys.count ("signal." ++ stemOf sid) + 1 ∧
        ∀ value, a.wrap shell content (c.bind ⟨sid, value⟩) id = value.text.intercalate ps := by
  obtain ⟨ps, hlength, hps⟩ := Template.substitute_update
    (fun key => (a.tokens content (c.bind ⟨sid, .null⟩) id)[key]?) ("signal." ++ stemOf sid) d
  refine ⟨ps, hlength, fun value => ?_⟩
  have htokens := tokens_bind a content c id sid value
  rw [if_pos h] at htokens
  rw [← hps, ← htokens]
  rfl

theorem wrap_bind_of_not_shows (a : Assembler) (shell content : String) {c : Context Hook}
    (id : ContextId) {sid : String} (h : ¬ c.Shows sid) (value : Json) :
    a.wrap shell content (c.bind ⟨sid, value⟩) id =
      a.wrap shell content (c.bind ⟨sid, .null⟩) id := by
  have htokens := tokens_bind a content c id sid value
  rw [if_neg h] at htokens
  exact congrArg (Template.substitute · shell) htokens

/-- **A fragment stands in its places only.** Whatever shell, context and id there are, the
document is the fragment set between pieces that do not depend on it, one more of them than
the shell has tokens for the fragment, as its division shows them. So it is with the value of
each signal that is bound: its places are the tokens with its stem, or none at all where
another signal with that stem hides it. -/
theorem fragment_confined (a : Assembler) (shell : String) (c : Context Hook) (id : ContextId) :
    Nonempty (Template.Division shell.toList) ∧
    (∀ s ∈ c.boundSignals, c.bind s = c) ∧
    ∀ d : Template.Division shell.toList,
      (∃ ps : List String, ps.length = d.keys.count "content" + 1 ∧
        ∀ content, a.wrap shell content c id = content.intercalate ps) ∧
      ∀ content sid, ∃ ps : List String,
        ps.length = (if c.Shows sid then d.keys.count ("signal." ++ stemOf sid) else 0) + 1 ∧
        ∀ value, a.wrap shell content (c.bind ⟨sid, value⟩) id = value.text.intercalate ps := by
  refine ⟨Template.nonempty_division _, fun s => Context.bind_self, fun d =>
    ⟨a.wrap_content d c id, fun content sid => ?_⟩⟩
  split
  next hshows => exact a.wrap_bind_of_shows d content id hshows
  next hhidden =>
    refine ⟨[a.wrap shell content (c.bind ⟨sid, .null⟩) id], rfl, fun value => ?_⟩
    rw [String.intercalate_singleton]
    exact a.wrap_bind_of_not_shows shell content id hhidden value

/-- A shell in which a fragment stands next to a brace. -/
def braces : String :=
  "\x7b\x7b content \x7d\x7d\x7b context_id \x7d\x7d \x7b\x7b signal.n \x7d\x7d"

/-- A context in which the one of two signals hides the other. -/
def twofold : Context Unit :=
  {id := "a", route := "/", session := "s",
    signals := .ofList [("n#1", Json.ofNat 1), ("n#2", Json.ofNat 2)]}

/-- The fragment has one place, the signal that is shown another, and the hidden one none. A
brace put beside a brace of the shell opens no token. -/
theorem fragment_confined_braces :
    (∃ ps : List String, ps.length = 2 ∧
      ∀ content, (default : Assembler).wrap braces content twofold "a" = content.intercalate ps) ∧
    (∃ ps : List String, ps.length = 2 ∧ ∀ value,
      (default : Assembler).wrap braces "\x7b" (twofold.bind ⟨"n#2", value⟩) "a" =
        value.text.intercalate ps) ∧
    (∃ ps : List String, ps.length = 1 ∧ ∀ value,
      (default : Assembler).wrap braces "\x7b" (twofold.bind ⟨"n#1", value⟩) "a" =
        value.text.intercalate ps) ∧
    twofold.bind ⟨"n#2", .ofNat 2⟩ = twofold ∧
    (default : Assembler).wrap braces "\x7b" twofold "a" = "\x7b\x7b context_id \x7d\x7d 2" := by
  have hcontent : (Template.keys braces).count "content" = 1 := by decide +kernel
  have hsignal : (Template.keys braces).count ("signal." ++ stemOf "n#2") = 1 := by decide +kernel
  have hshown : twofold.Shows "n#2" := by decide +kernel
  have hhidden : ¬ twofold.Shows "n#1" := by decide +kernel
  obtain ⟨⟨d⟩, hbound, hdivided⟩ := fragment_confined default braces twofold "a"
  obtain ⟨hplaces, hsignals⟩ := hdivided d
  have hshowing := hsignals "\x7b" "n#2"
  have hhiding := hsignals "\x7b" "n#1"
  rw [← d.keys_eq, hcontent] at hplaces
  rw [if_pos hshown, ← d.keys_eq, hsignal] at hshowing
  rw [if_neg hhidden] at hhiding
  exact ⟨hplaces, hshowing, hhiding, hbound _ (Context.mem_boundSignals.mpr rfl),
    by decide +kernel⟩

end SharedViews.Assembler

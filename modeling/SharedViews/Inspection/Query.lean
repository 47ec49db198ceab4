import SharedViews.CommandLine
import SharedViews.Inspection.Exchange
import SharedViews.Inspection.Printout

/-! What the inspecting commands ask, and what they print.

Each of them sends one request or two, each over a connection of its own, and
prints the results that come back. Answers travel as text, and what is printed is
what that text reads as. A request that is refused leaves nothing to print. -/
namespace SharedViews.Inspection

/-- The request a command sends for a method. -/
def Method.request (m : Method) (params : Json) : Inquiry := ⟨m.name, params, .ofNat 1⟩

/-- What an inspecting command asks, first to last; the other commands ask
nothing. -/
def requests : Command → List Inquiry
  | .stats => [Method.renderStats.request .null, Method.cacheStats.request .null]
  | .contexts => [Method.listContexts.request .null]
  | .clients => [Method.listClients.request .null]
  | .invalidate scope => [Method.invalidateScope.request (.ofFields [("scope", .string scope)])]
  | .serve _ | .assemble .. => []

/-- What a command prints of the results it has asked for. -/
def commandOutput : Command → List Json → Option String
  | .stats, [renders, cache] => some (printout renders cache)
  | .contexts, [data] | .clients, [data] => some (data.prettyText ++ "\n")
  | .invalidate scope, [data] =>
    if (data.field "invalidated").bool? = some true then some ("invalidated " ++ scope ++ "\n")
    else some ("nothing cached for " ++ scope ++ "\n")
  | _, _ => none

/-- The result in an answer that carries no error. -/
def resultOf (answer : Json) : Option Json :=
  match answer.field? "error" with
  | some _ => none
  | none => some (answer.field "result")

/-- Sends a request to an engine and reads the answer's line. -/
def ask (request : Inquiry) (e : Engine) : Option Json × Engine :=
  let (answer, e) := respond request e
  ((Json.parseChars (Text.trimChars (answerLine answer).toList)).bind resultOf, e)

/-- Sends requests from first to last, and reads all answers. -/
def askAll : List Inquiry → Engine → Option (List Json) × Engine
  | [], e => (some [], e)
  | request :: rest, e =>
    let (result, e) := ask request e
    let (results, e) := askAll rest e
    (do return (← result) :: (← results), e)

/-- What a command comes to at the engine it asks. -/
def commandText (command : Command) (e : Engine) : Option String × Engine :=
  let (results, e) := askAll (requests command) e
  (results.bind (commandOutput command), e)

end SharedViews.Inspection

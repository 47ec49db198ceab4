import SharedViews.Inspection.Method
import SharedViews.Json.Parser
import SharedViews.Json.Printer
import SharedViews.Text.Blank

/-! One request line, one answer line.

A connection brings bytes, of which the first line counts. If that line is text
and, without the blanks around it, JSON, it is answered on one line: with the
result or the refusal of the method it names, and with its own `id`. Whatever is
missing from the request counts as null. A line that is no JSON is not
answered. -/
namespace SharedViews.Inspection

/-- What counts of a request. -/
structure Inquiry where
  /-- Empty, and then the name of no method, if the request has no name for it. -/
  method : String
  params : Json
  id : Json
  deriving Inhabited

def Inquiry.ofJson (data : Json) : Inquiry :=
  ⟨((data.field "method").string?).getD "", data.field "params", data.field "id"⟩

/-- The line, up to and including its end, that a connection begins with. -/
def firstLine : List UInt8 → List UInt8
  | [] => []
  | b :: rest => if b = 10 then [b] else b :: firstLine rest

/-- The request in the bytes of a connection, if there is one. -/
def Inquiry.ofBytes? (bytes : ByteArray) : Option Inquiry := do
  let line ← String.fromUTF8? (ByteArray.mk (firstLine bytes.toList).toArray)
  return .ofJson (← Json.parseChars (Text.trimChars line.toList))

/-- The answer to a request. -/
def respond (request : Inquiry) (e : Engine) : Json × Engine :=
  let (outcome, e) := call request.method request.params e
  let outcomeField := match outcome with
    | .ok result => ("result", result)
    | .error refusal =>
      ("error", Json.ofFields [("code", .ofInt refusal.code), ("message", .string refusal.message)])
  (.ofFields [("jsonrpc", .string "2.0"), outcomeField, ("id", request.id)], e)

/-- The answer to the bytes of a connection, `none` if it closes without one. -/
def exchange (bytes : ByteArray) (e : Engine) : Option Json × Engine :=
  match Inquiry.ofBytes? bytes with
  | some request => let (answer, e) := respond request e; (some answer, e)
  | none => (none, e)

/-- An answer as it is sent. -/
def answerLine (answer : Json) : String := String.ofList (answer.chars ++ ['\n'])

end SharedViews.Inspection

import SharedViews.CommandLine.Outcome
import SharedViews.Engine.Effect

/-! Inspection from inside the engine.

For the engine that is inspected, a connection is the request it brings and a
command line is the requests its command sends. Both are lists of operations, so a
view or a teardown hook can issue them like any others; the theorems say that
issuing them leaves the engine as the connection or the command line would. -/
namespace SharedViews
open Inspection

def Inspection.Inquiry.operation (request : Inquiry) : Operation :=
  .inspect request.method request.params

namespace Operation

/-- What the bytes of a connection have an engine do. -/
def ofBytes (bytes : ByteArray) : List Operation :=
  (Inquiry.ofBytes? bytes).toList.map Inquiry.operation

/-- What a command line has the engine do that its socket leads to. -/
def ofWords (words : List String) (fromEnvironment : Option String) : List Operation :=
  match CommandLine.parse words fromEnvironment with
  | .ok invocation => (requests invocation.command).map Inquiry.operation
  | .error _ => []

end Operation

namespace Engine

theorem apply_operation (e : Engine) (request : Inquiry) :
    (e.apply request.operation).2 = (respond request e).2 := rfl

theorem ask_snd (e : Engine) (request : Inquiry) :
    (ask request e).2 = (e.apply request.operation).2 := rfl

/-- A connection leaves the engine as its operations do. -/
theorem exchange_snd (e : Engine) (bytes : ByteArray) :
    (exchange bytes e).2 = e.applyAll (Operation.ofBytes bytes) := by
  unfold exchange Operation.ofBytes
  cases Inquiry.ofBytes? bytes with
  | none => rfl
  | some request => exact (apply_operation e request).symm

theorem askAll_snd (e : Engine) (rs : List Inquiry) :
    (askAll rs e).2 = e.applyAll (rs.map Inquiry.operation) := by
  induction rs generalizing e with
  | nil => rfl
  | cons request rest ih =>
    rw [List.map_cons, applyAll, ← ask_snd, ← ih, askAll]

theorem commandText_snd (e : Engine) (command : Command) :
    (commandText command e).2 = e.applyAll ((requests command).map Inquiry.operation) :=
  askAll_snd e _

/-- A command leaves the engine that it asks as its operations do. -/
theorem outcome_snd (e : Engine) (files : Files) (command : Command) :
    (CommandLine.outcome files (some e) command).2 =
      some (e.applyAll ((requests command).map Inquiry.operation)) := by
  cases command with
  | assemble fragment shell contextId => rfl
  | serve options => rfl
  | _ => rw [← commandText_snd]; rfl

/-- A command line leaves the engine that it asks as its operations do. -/
theorem run_snd (e : Engine) (files : Files) (words : List String)
    (fromEnvironment : Option String) :
    (CommandLine.run files (some e) words fromEnvironment).2 =
      some (e.applyAll (Operation.ofWords words fromEnvironment)) := by
  unfold CommandLine.run Operation.ofWords
  cases CommandLine.parse words fromEnvironment with
  | error fault => rfl
  | ok invocation => exact outcome_snd e files invocation.command

end Engine
end SharedViews

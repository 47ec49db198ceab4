import SharedViews.Document
import SharedViews.Settings.Text

/-! Settings of the engine.

Each setting has a default, so an empty file gives a valid configuration. A file
that names a setting twice, or one that does not exist, or gives one a value of
another kind is refused as a whole. -/
namespace SharedViews

structure Settings where
  /-- The grace period in milliseconds. -/
  cleanupDelay : Nat := 5000
  /-- The path of the shell; the built-in one if there is none. -/
  shell : Option String := none
  socketPath : Option String := none
  head : List String := []
  foot : List String := []
  deriving DecidableEq, Inhabited, Repr

namespace Settings

def Value.text? : Value → Option String
  | .string s => some s
  | _ => none

def Value.texts? : Value → Option (List String)
  | .array values => values.mapM Value.text?
  | _ => none

def Value.nat? : Value → Option Nat
  | .integer n => if 0 ≤ n then some n.toNat else none
  | _ => none

/-- Sets one setting. -/
def set (s : Settings) (name : String) (value : Value) : Option Settings :=
  match name with
  | "cleanup_delay_ms" => value.nat?.map fun cleanupDelay => {s with cleanupDelay}
  | "shell" => value.text?.map fun path => {s with shell := some path}
  | "socket_path" => value.text?.map fun path => {s with socketPath := some path}
  | "head" => value.texts?.map fun head => {s with head}
  | "foot" => value.texts?.map fun foot => {s with foot}
  | _ => none

/-- Why there are no settings. -/
inductive Failure
  | unreadable (cause : ReadFailure)
  | malformed
  deriving DecidableEq, Inhabited, Repr

def ofEntries (entries : List (String × Value)) : Option Settings :=
  if (entries.map Prod.fst).Nodup then
    entries.foldlM (fun s (name, value) => s.set name value) {}
  else none

def ofText (text : String) : Except Failure Settings :=
  match (parse text).bind ofEntries with
  | some s => .ok s
  | none => .error .malformed

def ofFile (files : Files) (path : String) : Except Failure Settings :=
  match files path with
  | .ok text => ofText text
  | .error cause => .error (.unreadable cause)

def isDefault (s : Settings) : Bool := s = {}

def shellOrBuiltIn (s : Settings) : Shell :=
  match s.shell with
  | some path => .path path
  | none => .inline builtInShell

def assembler (s : Settings) : Assembler := ⟨s.shellOrBuiltIn, s.head, s.foot⟩

/-! ### The socket -/

/-- What the environment says about the user. -/
structure Surroundings where
  runtimeDirectory : Option String
  user : Option String
  deriving DecidableEq, Inhabited, Repr

/-- The socket's path where none is given: in the user's runtime directory, or in
a temporary one with the user's name. -/
def standardSocketPath (s : Surroundings) : String :=
  match s.runtimeDirectory with
  | some directory => directory ++ "/viewsync/viewsync.sock"
  | none => "/tmp/viewsync-" ++ s.user.getD "unknown" ++ "/viewsync.sock"

def socket (s : Settings) (around : Surroundings) : String :=
  s.socketPath.getD (standardSocketPath around)

end Settings
end SharedViews

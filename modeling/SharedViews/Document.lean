import SharedViews.Context
import SharedViews.File
import SharedViews.Json.Printer
import SharedViews.Template.Substitution

/-! Documents: a rendered fragment in its shell.

A shell is a text with tokens for the fragment, for what pages inject at their
head and foot, for the context's id and for the signals it binds. A fragment that
carries the root tag of a document already is one and is left as it is. Of
signals with one stem the one with the greatest id is shown, its value and
its id together. -/
namespace SharedViews
open Std

/-! ### Root tags -/

/-- What may follow the name in a root tag: white space, the end of the tag, or
the slash of an empty one. -/
def endsTagName (c : Char) : Bool :=
  c = ' ' || c = '\t' || c = '\n' || c = '\x0c' || c = '\r' || c = '>' || c = '/'

/-- Whether a text in lower case has a root tag. -/
def hasRootTag : List Char → Bool
  | [] => false
  | '<' :: 'h' :: 't' :: 'm' :: 'l' :: rest => rest.head?.any endsTagName || hasRootTag rest
  | _ :: rest => hasRootTag rest

/-- Whether a text is a document of its own, not a fragment of one. -/
def isWholeDocument (content : String) : Bool := hasRootTag (content.toList.map Char.toLower)

/-! ### Shells -/

/-- Where the text of a shell comes from. -/
inductive Shell
  | inline (text : String)
  | path (path : String)
  deriving DecidableEq, Repr

/-- The shell used where none is given. -/
def builtInShell : String :=
  "<!DOCTYPE html>\n<html>\n<head>\n<meta charset=\"utf-8\">\n" ++
  "\x7b\x7b head \x7d\x7d\n</head>\n" ++
  "<body data-context-id=\"\x7b\x7b context_id \x7d\x7d\" " ++
  "data-disconnected=\"\x7b\x7b disconnected \x7d\x7d\">\n" ++
  "\x7b\x7b content \x7d\x7d\n\x7b\x7b foot \x7d\x7d\n</body>\n</html>\n"

instance : Inhabited Shell := ⟨.inline builtInShell⟩

/-- Why no document comes out. -/
inductive ShellError
  | shell (path : String) (cause : ReadFailure)
  deriving DecidableEq, Inhabited, Repr

def ShellError.message : ShellError → String
  | .shell path cause => "failed to read shell template " ++ path ++ ": " ++ cause.message

/-- A shell and what pages have injected into it. -/
structure Assembler where
  shell : Shell := .inline builtInShell
  head : List String := []
  foot : List String := []
  deriving Inhabited

namespace Assembler
variable {Hook : Type}

def injectHead (a : Assembler) (html : String) : Assembler := {a with head := a.head ++ [html]}

def injectFoot (a : Assembler) (html : String) : Assembler := {a with foot := a.foot ++ [html]}

/-- Shows a signal under its stem, in place of an earlier one. -/
def addSignal (table : ExtTreeMap String String) (s : Signal) : ExtTreeMap String String :=
  (table.insert ("signal." ++ s.stem) s.value.text).insert ("signal_id." ++ s.stem) s.id

/-- What the tokens of a shell stand for. -/
def tokens (a : Assembler) (content : String) (c : Context Hook) (id : ContextId) :
    ExtTreeMap String String :=
  c.boundSignals.foldl addSignal <| ExtTreeMap.ofList [
    ("context_id", id),
    ("disconnected", "false"),
    ("head", "\n".intercalate a.head),
    ("foot", "\n".intercalate a.foot),
    ("content", content)]

/-- The document a shell's text gives. -/
def wrap (a : Assembler) (shell content : String) (c : Context Hook) (id : ContextId) :
    String :=
  let table := a.tokens content c id
  Template.substitute (fun key => table[key]?) shell

/-- The text of the shell. -/
def readShell (a : Assembler) (files : Files) : Except ShellError String :=
  match a.shell with
  | .inline text => .ok text
  | .path path =>
    match files path with
    | .ok text => .ok text
    | .error cause => .error (.shell path cause)

/-- The document for a fragment; the shell is read only if it is needed. -/
def build (a : Assembler) (files : Files) (content : String) (c : Context Hook)
    (id : ContextId) : Except ShellError String :=
  if isWholeDocument content then .ok content
  else (a.readShell files).map fun shell => a.wrap shell content c id

end Assembler
end SharedViews

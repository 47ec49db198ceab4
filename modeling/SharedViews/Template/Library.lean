import SharedViews.Json.Printer
import SharedViews.Template.Substitution
import SharedViews.Text.Quoted
import Std.Data.ExtTreeMap

/-! Named templates.

A template has a source and any number of named blocks, each a source of its own
that is rendered without the rest. A block may be there without its template's
source. Rendering fills the source's tokens with the data's members: a string
goes in as it is, everything else as JSON. -/
namespace SharedViews.Template
open Std

structure Library where
  sources : ExtTreeMap String String := ∅
  /-- The blocks of each template. -/
  blocks : ExtTreeMap String (ExtTreeMap String String) := ∅

/-- Why a template cannot be rendered. -/
inductive Missing
  | template (name : String)
  | block (owner name : String)
  deriving DecidableEq, Inhabited, Repr

def Missing.message : Missing → String
  | .template name => "template not found: " ++ name
  | .block owner name =>
    "block " ++ Text.quote name ++ " not found in template " ++ Text.quote owner

/-- Data as it appears in a page. -/
def valueText : Json → String
  | .string s => s
  | data => data.text

namespace Library

def addSource (l : Library) (name source : String) : Library :=
  {l with sources := l.sources.insert name source}

def addBlock (l : Library) (name block source : String) : Library :=
  {l with blocks := l.blocks.insert name ((l.blocks.getD name ∅).insert block source)}

/-- The source of a template or of one of its blocks. A block of an unknown
template is missing with the template. -/
def source (l : Library) (name : String) (block : Option String) : Except Missing String :=
  match block with
  | none =>
    match l.sources[name]? with
    | some source => .ok source
    | none => .error (.template name)
  | some block =>
    match (l.blocks.getD name ∅)[block]? with
    | some source => .ok source
    | none =>
      if l.sources.contains name then .error (.block name block) else .error (.template name)

def render (l : Library) (name : String) (data : Json.Fields) (block : Option String) :
    Except Missing String :=
  (l.source name block).map <| substitute fun key => (Json.Fields.get? key data).map valueText

end Library
end SharedViews.Template

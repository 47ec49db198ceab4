import SharedViews.Client
import SharedViews.Context
import SharedViews.View.Rendered
import SharedViews.View.Durations

/-! The data exchanged about views, contexts and clients.

Everything that crosses the inspection socket has one form as JSON: an
identifier or a scope is its text, a record is an object with a member per
field. Reading is a little wider than writing: a record may also be given as an
array of its fields in order, members beyond the known ones are ignored, and a
kind of render may be an object with its name as the one member, holding
`null`. -/
namespace SharedViews.Wire

/-! ### Writing -/

def ofScope (s : Scope) : Json := .string s.display

def ofScopes (scopes : List Scope) : Json := .array (scopes.map ofScope)

def ofKind (k : RenderKind) : Json := .string k.name

def ofSignal (s : Signal) : Json := .ofFields [("id", .string s.id), ("value", s.value)]

def ofClient (c : Client) : Json :=
  .ofFields [
    ("client_id", .string c.id),
    ("connected_at", .string c.connectedAt.text),
    ("identicon", .string c.identicon),
    ("remote_addr", match c.remote with
      | some a => .string a.text
      | none => .null)]

def ofProfile (s : ContextProfile) : Json :=
  .ofFields [
    ("id", .string s.id),
    ("route", .string s.route),
    ("session_id", .string s.session),
    ("scopes", ofScopes s.scopes),
    ("signal_count", .ofNat s.signalCount),
    ("cache_updates", .bool s.cacheUpdates)]

def ofOccupancy (s : Occupancy) : Json :=
  .ofFields [
    ("entries", .ofNat s.views),
    ("initial_entries", .ofNat s.initialViews),
    ("update_entries", .ofNat s.updateViews),
    ("scopes", ofScopes s.scopes),
    ("rendering", ofScopes s.marked)]

/-- A double, `null` when it is not finite. -/
def ofFloat (x : Float) : Json := if x.isFinite then .number (.float x) else .null

def ofFigures (s : DurationFigures) : Json :=
  .ofFields [
    ("render_count", .ofNat s.count),
    ("total_time", ofFloat s.total),
    ("min_time", ofFloat s.shortest),
    ("max_time", ofFloat s.longest),
    ("avg_time", ofFloat s.mean)]

/-! ### Reading -/

def toScope (data : Json) : Option Scope := data.string?.map Scope.parse

def toKind (data : Json) : Option RenderKind :=
  let ofName (name : String) : Option RenderKind :=
    if name = RenderKind.initial.name then some .initial
    else if name = RenderKind.update.name then some .update
    else none
  match data with
  | .string name => ofName name
  | .object [(name, .null)] => ofName name
  | _ => none

def toSignal (data : Json) : Option Signal :=
  match data with
  | .object _ => do
    let id ← (← data.field? "id").string?
    some ⟨id, ← data.field? "value"⟩
  | .array [id, value] => id.string?.map fun id => ⟨id, value⟩
  | _ => none

def toAddress (data : Json) : Option (Option Address) :=
  match data with
  | .null => some none
  | .string s => (Address.parse s).map some
  | _ => none

def clientOf (id identicon connectedAt remote : Json) : Option Client := do
  some {
    id := ← id.string?
    identicon := ← identicon.string?
    connectedAt := ← connectedAt.string? >>= Timestamp.parse
    remote := ← toAddress remote }

def toClient (data : Json) : Option Client :=
  match data with
  | .object _ => do
    clientOf (← data.field? "client_id") (← data.field? "identicon")
      (← data.field? "connected_at") (data.field "remote_addr")
  | .array [id, identicon, connectedAt, remote] => clientOf id identicon connectedAt remote
  | _ => none

end SharedViews.Wire

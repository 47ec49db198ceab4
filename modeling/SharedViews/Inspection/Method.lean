import SharedViews.Engine
import SharedViews.Wire

/-! Methods of the inspection protocol.

Nine methods look at an engine; three of them also act on it: they drop the views
of a scope, drop all views, or write a global value. Parameters are looked up in
whatever data came along, so a method that needs none accepts any. -/
namespace SharedViews.Inspection

inductive Method
  | listContexts
  | listClients
  | cacheStats
  | renderStats
  | listScopes
  | invalidateScope
  | clearCache
  | getGlobal
  | setGlobal
  deriving DecidableEq, Inhabited, Repr

def Method.name : Method → String
  | listContexts => "list_contexts"
  | listClients => "list_clients"
  | cacheStats => "cache_stats"
  | renderStats => "render_stats"
  | listScopes => "list_scopes"
  | invalidateScope => "invalidate_scope"
  | clearCache => "clear_cache"
  | getGlobal => "get_global"
  | setGlobal => "set_global"

def Method.all : List Method :=
  [listContexts, listClients, cacheStats, renderStats, listScopes, invalidateScope, clearCache,
    getGlobal, setGlobal]

def Method.ofName? (name : String) : Option Method := Method.all.find? (·.name == name)

/-- Why a request has no result. -/
inductive Refusal
  | unknownMethod
  /-- The parameter is absent or no string. -/
  | missingParameter (name : String)
  deriving DecidableEq, Inhabited, Repr

def Refusal.code : Refusal → Int
  | unknownMethod => -32601
  | missingParameter _ => -32602

def Refusal.message : Refusal → String
  | unknownMethod => "method not found"
  | missingParameter name => "missing string param: " ++ name

def stringParameter (params : Json) (name : String) : Except Refusal String :=
  match (params.field name).string? with
  | some s => .ok s
  | none => .error (.missingParameter name)

/-- The active scopes with their numbers of members. -/
def scopeList (m : Membership) : Json :=
  .array (m.occupiedScopes.map fun scope =>
    .ofFields [("members", .ofNat (m.countOf scope)), ("scope", Wire.ofScope scope)])

/-- What a method answers, and the engine after it. -/
def Method.run (m : Method) (params : Json) (e : Engine) : Except Refusal Json × Engine :=
  match m with
  | listContexts =>
    (.ok (.ofFields [
      ("contexts", .array (e.presence.profiles.map Wire.ofProfile)),
      ("pending_cleanups", .strings e.presence.pendingIds)]), e)
  | listClients => (.ok (.array (e.presence.allClients.map Wire.ofClient)), e)
  | cacheStats => (.ok (Wire.ofOccupancy e.traffic.flights.cache.occupancy), e)
  | renderStats => (.ok (Wire.ofFigures e.traffic.flights.durations.figures), e)
  | listScopes => (.ok (scopeList e.presence.scopes), e)
  | invalidateScope =>
    match stringParameter params "scope" with
    | .error refusal => (.error refusal, e)
    | .ok text =>
      let scope := Scope.parse text
      (.ok (.ofFields [("invalidated", .bool (e.holds scope))]), e.onTraffic (.invalidate scope))
  | clearCache => (.ok (.ofFields [("cleared", .bool true)]), e.onTraffic .clear)
  | getGlobal =>
    match stringParameter params "key" with
    | .error refusal => (.error refusal, e)
    | .ok key => (.ok (.ofOption e.presence.globals[key]?), e)
  | setGlobal =>
    match stringParameter params "key" with
    | .error refusal => (.error refusal, e)
    | .ok key =>
      (.ok (.ofFields [("previous", .ofOption e.presence.globals[key]?)]),
        {e with presence := e.presence.setGlobal key (params.field "value")})

/-- A request by the name of its method. -/
def call (name : String) (params : Json) (e : Engine) : Except Refusal Json × Engine :=
  match Method.ofName? name with
  | some m => m.run params e
  | none => (.error .unknownMethod, e)

end SharedViews.Inspection

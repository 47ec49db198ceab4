import SharedViews.Proofs.Inspection.Confinement
import SharedViews.Proofs.Scope.TextForm
import SharedViews.Proofs.View.Occupancy

/-! Scopes named in requests.

A request names a scope by its text, and the scopes that hold views are listed by their texts.
As long as none of them is ambiguous, a text from the list names the scope that it was written
for (`scopes_named`): to send it back drops the views of that scope, and nothing else. -/
namespace SharedViews

namespace Wire

/-- A scope reads as what its text reads as. -/
theorem toScope_ofScope (scope : Scope) :
    toScope (ofScope scope) = some (.parse scope.display) := rfl

theorem ofScope_inj {scope other : Scope} (hscope : ¬ scope.Ambiguous) (hother : ¬ other.Ambiguous)
    (h : ofScope scope = ofScope other) : scope = other := by
  have hread := congrArg toScope h
  rwa [toScope_ofScope, toScope_ofScope, scope.parse_display_iff.mpr hscope,
    other.parse_display_iff.mpr hother, Option.some.injEq] at hread

theorem field_scopes_ofOccupancy (o : Occupancy) :
    (ofOccupancy o).field "scopes" = ofScopes o.scopes := by
  simp [ofOccupancy, Json.ofFields, Json.field, Json.field?, Json.Fields.ofList,
    Json.Fields.get?_insert]

end Wire

namespace Inspection
variable {e : Engine} {request : Json} {scope : Scope}

theorem call_cacheStats (params : Json) (e : Engine) : (call "cache_stats" params e).1 =
    .ok (Wire.ofOccupancy e.traffic.flights.cache.occupancy) :=
  congrArg Prod.fst (call_of_name .cacheStats params e)

/-- A request that names a scope by its text. -/
theorem call_invalidateScope (h : request.field "scope" = Wire.ofScope scope)
    (hscope : ¬ scope.Ambiguous) (e : Engine) : call "invalidate_scope" request e =
      (.ok (.ofFields [("invalidated", .bool (e.holds scope))]),
        e.onTraffic (.invalidate scope)) := by
  have hcall := call_of_name .invalidateScope request e
  have hparameter : stringParameter request "scope" = .ok scope.display := by
    rw [stringParameter_eq, h]
    rfl
  rw [Method.run, hparameter] at hcall
  dsimp only at hcall
  rw [scope.parse_display_iff.mpr hscope] at hcall
  exact hcall

theorem get?_onTraffic_invalidate (e : Engine) (scope other : Scope) (kind : RenderKind) :
    (e.onTraffic (.invalidate scope)).traffic.flights.cache.get? other kind =
      if other = scope then none else e.traffic.flights.cache.get? other kind := by
  show (e.traffic.flights.cache.invalidate scope).get? other kind = _
  rw [RenderedViews.get?_invalidate]
  exact if_congr eq_comm rfl rfl

/-- The name is that of one scope, out of those that the engine holds views for. Sent in a
request, it drops all views of the scope and no other views, and the answer says that there
were some. -/
structure Designates (e : Engine) (name : Json) (scope : Scope) : Prop where
  text : name = Wire.ofScope scope
  holds : e.holds scope = true
  only : ∀ other, e.holds other = true → name = Wire.ofScope other → other = scope
  answer : ∀ request : Json, request.field "scope" = name →
    (call "invalidate_scope" request e).1 = .ok (.ofFields [("invalidated", .bool true)])
  drops : ∀ request : Json, request.field "scope" = name → ∀ other kind,
    (call "invalidate_scope" request e).2.traffic.flights.cache.get? other kind =
      if other = scope then none else e.traffic.flights.cache.get? other kind

theorem designates_of_holds (hplain : ∀ scope, e.holds scope = true → ¬ scope.Ambiguous)
    (h : e.holds scope = true) : Designates e (Wire.ofScope scope) scope where
  text := rfl
  holds := h
  only other hother hsame := Wire.ofScope_inj (hplain other hother) (hplain scope h) hsame.symm
  answer request hrequest := by
    rw [call_invalidateScope hrequest (hplain scope h), h]
  drops request hrequest := by
    rw [call_invalidateScope hrequest (hplain scope h)]
    exact get?_onTraffic_invalidate e scope

/-- **Scopes are known by their texts.** Every text is that of the scope it is read as, so no
two texts are read as one scope; and a scope is read back, as a text or as data, exactly if it
is no custom scope whose name is the text of another kind. So if an engine holds views for no
such scope, the texts that it lists are those of the scopes with views, and each of them
designates its scope. -/
theorem scopes_named :
    (∀ text, (Scope.parse text).display = text) ∧ Function.Injective Scope.parse ∧
    (∀ scope : Scope, Scope.parse scope.display = scope ↔ ¬ scope.Ambiguous) ∧
    (∀ text, (Wire.toScope (.string text)).map Wire.ofScope = some (.string text)) ∧
    (∀ scope : Scope, Wire.toScope (Wire.ofScope scope) = some scope ↔ ¬ scope.Ambiguous) ∧
    ∀ e : Engine, (∀ scope, e.holds scope = true → ¬ scope.Ambiguous) →
      ∀ params, ∃ stats listed, (call "cache_stats" params e).1 = .ok stats ∧
        (stats.field "scopes").array? = some listed ∧
        (∀ scope, e.holds scope = true → Wire.ofScope scope ∈ listed) ∧
        ∀ name ∈ listed, ∃ scope, Designates e name scope := by
  refine ⟨Scope.display_parse, Scope.parse_injective, Scope.parse_display_iff, fun text => ?_,
    fun scope => ?_, fun e hplain params => ?_⟩
  · exact congrArg (some ∘ Json.string) (Scope.display_parse text)
  · rw [Wire.toScope_ofScope, Option.some.injEq, scope.parse_display_iff]
  · refine ⟨_, _, call_cacheStats params e, congrArg Json.array? (Wire.field_scopes_ofOccupancy _),
      fun scope hholds => ?_, fun name hname => ?_⟩
    · exact List.mem_map_of_mem (RenderedViews.mem_scopes.mpr hholds)
    · obtain ⟨scope, hscope, rfl⟩ := List.mem_map.mp hname
      exact ⟨scope, designates_of_holds hplain (RenderedViews.mem_scopes.mp hscope)⟩

/-- The parameters of a request about one scope. -/
def aboutScope (name : Json) : Json := .ofFields [("scope", name)]

/-- The views of two scopes are rendered, a route without a path and a custom scope with a
name that is short of another kind's text. -/
def twoViews : List Act :=
  [.render (.arrive 0 ⟨.route "", .update, true⟩ 0.0), .render (.viewEnds 0 (.ok "a") 0.0),
    .render (.arrive 1 ⟨.custom "ROUTE", .update, true⟩ 0.0),
    .render (.viewEnds 1 (.ok "b") 0.0)]

/-- The text of the route is listed, and sending it drops its view and not the other. -/
theorem scopes_named_apart :
    (∀ scope, ((default : Engine).after twoViews).holds scope = true → ¬ scope.Ambiguous) ∧
    (call "invalidate_scope" (aboutScope (.string "ROUTE:"))
      ((default : Engine).after twoViews)).1 = .ok (.ofFields [("invalidated", .bool true)]) ∧
    (call "invalidate_scope" (aboutScope (.string "ROUTE:"))
      ((default : Engine).after twoViews)).2.traffic.flights.cache.get? (.route "") .update =
        none ∧
    (call "invalidate_scope" (aboutScope (.string "ROUTE:"))
      ((default : Engine).after twoViews)).2.traffic.flights.cache.get? (.custom "ROUTE") .update =
        some "b" := by
  generalize he : (default : Engine).after twoViews = e
  have hscopes : e.traffic.flights.cache.scopes = [.route "", .custom "ROUTE"] := by
    rw [← he]
    decide +kernel
  have hview : e.traffic.flights.cache.get? (.custom "ROUTE") .update = some "b" := by
    rw [← he]
    decide +kernel
  obtain ⟨_, _, hread, _, _, hrequests⟩ := scopes_named
  have hplain : ∀ scope, e.holds scope = true → ¬ scope.Ambiguous := by
    intro scope hscope
    have hmem : scope ∈ e.traffic.flights.cache.scopes := RenderedViews.mem_scopes.mpr hscope
    rw [hscopes] at hmem
    rcases List.mem_pair.mp hmem with rfl | rfl
    · exact (hread _).mp (by decide +kernel)
    · exact (hread _).mp (by decide +kernel)
  have hroute : e.holds (.route "") = true := by
    refine RenderedViews.mem_scopes.mp ?_
    rw [hscopes]
    exact List.mem_cons_self
  obtain ⟨_, listed, _, _, hlisted, hnames⟩ := hrequests e hplain .null
  obtain ⟨scope, hname⟩ := hnames _ (hlisted _ hroute)
  obtain rfl : Scope.route "" = scope := hname.only _ hroute rfl
  refine ⟨hplain, hname.answer _ rfl, ?_, ?_⟩
  · rw [hname.drops _ rfl, if_pos rfl]
  · rw [hname.drops _ rfl, if_neg (by decide), hview]

end Inspection
end SharedViews

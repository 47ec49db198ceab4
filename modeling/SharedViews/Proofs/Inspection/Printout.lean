import SharedViews.Inspection.Printout
import SharedViews.Proofs.Decimal.Numerals
import SharedViews.Proofs.Engine.Tally
import SharedViews.Proofs.Inspection.Listing

/-! What the printout says of an engine.

The printout reads the answers about renders and about the cache by the names of their members,
and takes what it does not find for nothing. In the answers of an engine it finds everything
(`printoutLines_of_answers`). So for every engine that is reached it says how many renders have been
counted and how many views there are, and names the scopes that have a view and those that have
a slot, each on a line of its own (`printout_agrees`). The text of a scope is printed as it is, and
one with a line break takes several lines, which may pass for those of others
(`printout_forged`). -/
namespace SharedViews
open Std

/-! ### Reading answers -/

namespace Json

/-- A member has the value that was given for it last. -/
theorem field?_ofFields (fields : List (String × Json)) (name : String) :
    (ofFields fields).field? name = fields.reverse.lookup name := by
  show Fields.get? name (Fields.ofList fields) = _
  induction fields using List.reverseRecOn with
  | nil => rfl
  | append_singleton fields field ih =>
    rw [Fields.ofList, List.foldl_concat, Fields.get?_insert, List.reverse_concat]
    by_cases h : field.1 = name
    · rw [if_pos h, List.lookup_cons, beq_iff_eq.mpr h.symm]
    · rw [if_neg h, List.lookup_cons, beq_false_of_ne (Ne.symm h)]
      exact ih

theorem field_ofFields {fields : List (String × Json)} {name : String} {value : Json}
    (h : fields.reverse.lookup name = some value) : (ofFields fields).field name = value := by
  rw [field, field?_ofFields, h]
  rfl

end Json

namespace Inspection
variable {answer : Json} {name : String}

theorem count_eq {n : Nat} (h : answer.field name = .ofNat n) :
    count answer name = n.repr.toList := by
  rw [count, h, Nat.toList_repr]
  rfl

theorem names_eq {scopes : List Scope} (h : answer.field name = Wire.ofScopes scopes) :
    names answer name = scopes.map Scope.display := by
  rw [names, h]
  show (scopes.map Wire.ofScope).filterMap Json.string? = _
  rw [List.filterMap_map]
  exact congrFun (List.filterMap_eq_map (f := Scope.display)) scopes

/-- The text of a duration. -/
def duration (answer : Json) (name : String) : String :=
  String.ofList (twoPlaces (((answer.field name).float?).getD 0.0 * 1000.0))

theorem millis_eq (answer : Json) (name : String) :
    millis answer name = (duration answer name).toList ++ "ms".toList := by
  rw [duration, String.toList_ofList]
  rfl

theorem newline_not_mem_duration (answer : Json) (name : String) :
    '\n' ∉ (duration answer name).toList := by
  rw [duration, String.toList_ofList]
  unfold twoPlaces
  split
  · intro h
    rcases Decimal.mem_fixed h with h | h | h <;> exact absurd h (by decide)
  · split <;> decide
  · decide

/-! ### The report -/

/-- What there is to print: how many renders were counted, how long they took as it is written,
and how full the cache is. -/
structure Report where
  renders : Nat
  mean : String
  shortest : String
  longest : String
  total : String
  occupancy : Occupancy

/-- A report line by line. -/
def Report.lines (r : Report) : List String :=
  ["renders: " ++ r.renders.repr ++ "  avg " ++ r.mean ++ "ms  min " ++ r.shortest ++
      "ms  max " ++ r.longest ++ "ms  total " ++ r.total ++ "ms",
    "cache: " ++ r.occupancy.views.repr ++ " entries (" ++ r.occupancy.updateViews.repr ++
      " update, " ++ r.occupancy.initialViews.repr ++ " initial)"] ++
    r.occupancy.scopes.map (fun scope => "  " ++ scope.display) ++
    r.occupancy.marked.map fun scope => "  " ++ scope.display ++ " (rendering)"

/-- What the answers with these figures report. -/
def Report.of (f : DurationFigures) (o : Occupancy) : Report where
  renders := f.count
  mean := duration (Wire.ofFigures f) "avg_time"
  shortest := duration (Wire.ofFigures f) "min_time"
  longest := duration (Wire.ofFigures f) "max_time"
  total := duration (Wire.ofFigures f) "total_time"
  occupancy := o

theorem printoutLines_of_answers (f : DurationFigures) (o : Occupancy) :
    printoutLines (Wire.ofFigures f) (Wire.ofOccupancy o) =
      (Report.of f o).lines.map String.toList := by
  have hrenders : count (Wire.ofFigures f) "render_count" = f.count.repr.toList :=
    count_eq (Json.field_ofFields rfl)
  have hviews : count (Wire.ofOccupancy o) "entries" = o.views.repr.toList :=
    count_eq (Json.field_ofFields rfl)
  have hupdates : count (Wire.ofOccupancy o) "update_entries" = o.updateViews.repr.toList :=
    count_eq (Json.field_ofFields rfl)
  have hinitials : count (Wire.ofOccupancy o) "initial_entries" = o.initialViews.repr.toList :=
    count_eq (Json.field_ofFields rfl)
  have hscopes : names (Wire.ofOccupancy o) "scopes" = o.scopes.map Scope.display :=
    names_eq (Wire.field_scopes_ofOccupancy o)
  have hmarked : names (Wire.ofOccupancy o) "rendering" = o.marked.map Scope.display :=
    names_eq (Json.field_ofFields rfl)
  rw [printoutLines, figures, scopeLines, renderingLines, hrenders, hviews, hupdates, hinitials,
    hscopes, hmarked]
  simp [millis_eq, Report.of, Report.lines, Function.comp_def]

/-! ### Lines -/

theorem toList_printout (f : DurationFigures) (o : Occupancy) :
    (printout (Wire.ofFigures f) (Wire.ofOccupancy o)).toList =
      (Report.of f o).lines.flatMap fun line => line.toList ++ ['\n'] := by
  rw [printout, String.toList_ofList, printoutLines_of_answers, List.flatMap_map]

/-- A text of ended lines, split where they end. -/
theorem splitOn_lines {lines : List String} (h : ∀ line ∈ lines, '\n' ∉ line.toList) :
    (lines.flatMap fun line => line.toList ++ ['\n']).splitOn '\n' =
      lines.map String.toList ++ [[]] := by
  induction lines with
  | nil => rfl
  | cons line rest ih =>
    have hline := h line List.mem_cons_self
    have hrest := ih fun other hother => h other (List.mem_cons_of_mem line hother)
    rw [List.flatMap_cons, List.append_assoc, List.singleton_append,
      List.splitOn_append_cons_self_of_not_mem hline, hrest]
    rfl

theorem newline_not_mem_lines (f : DurationFigures) {o : Occupancy}
    (h : ∀ scope, scope ∈ o.scopes ∨ scope ∈ o.marked → '\n' ∉ scope.display.toList) :
    ∀ line ∈ (Report.of f o).lines, '\n' ∉ line.toList := by
  intro line hline
  have hdigits : ∀ n : Nat, '\n' ∉ Nat.toDigits 10 n := Decimal.newline_not_mem_digitChars
  simp only [Report.lines, Report.of, List.mem_append, List.mem_cons, List.mem_map, List.not_mem_nil,
    or_false] at hline
  rcases hline with ((rfl | rfl) | ⟨scope, hscope, rfl⟩) | ⟨scope, hscope, rfl⟩
  · simp [hdigits, newline_not_mem_duration]
  · simp [hdigits]
  · simp [h scope (.inl hscope)]
  · simp [h scope (.inr hscope)]

/-! ### The engine -/

theorem call_renderStats (params : Json) (e : Engine) : (call "render_stats" params e).1 =
    .ok (Wire.ofFigures e.traffic.flights.durations.figures) :=
  congrArg Prod.fst (call_of_name .renderStats params e)

/-- The report has the figures of the engine that the acts lead to, and its scopes. -/
structure Report.Agrees (r : Report) (acts : List Act) (e : Engine) : Prop where
  renders : r.renders = e.traffic.flights.durations.count
  counted : ∃ calls : Finset Nat,
    (∀ call, call ∈ calls ↔ Traffic.Counted (acts.flatMap Act.events) call) ∧
      r.renders = min calls.card (2 ^ 64 - 1)
  durations : ∀ text ∈ [r.mean, r.shortest, r.longest, r.total], '\n' ∉ text.toList
  occupancy : r.occupancy.Reports e.traffic.flights.cache
  initialViews : r.occupancy.initialViews = 0
  updateViews : r.occupancy.updateViews = r.occupancy.views
  rendering : ∀ scope, scope ∈ r.occupancy.marked ↔ scope ∈ e.traffic.flights.slots

/-- All views are of updates. -/
theorem initialViews_eq_zero {fs : Flights} (h : fs.Proper) :
    fs.cache.occupancy.initialViews = 0 := by
  obtain ⟨keys, hkeys, -, hinitial, -⟩ := fs.cache.reports_occupancy.counts
  rw [hinitial, Finset.card_eq_zero, Finset.filter_eq_empty_iff]
  intro key hkey hkind
  obtain ⟨html, hview⟩ := Option.isSome_iff_exists.mp ((hkeys key).mp hkey)
  have hupdate := (h.views key.scope key.kind html hview).2
  rw [hkind] at hupdate
  cases hupdate

theorem agrees_after (documents files cleanupDelay) (acts : List Act) :
    let e := (Engine.start documents files cleanupDelay).after acts
    (Report.of e.traffic.flights.durations.figures e.traffic.flights.cache.occupancy).Agrees
      acts e := by
  intro e
  have htraffic : e.traffic = Traffic.after (acts.flatMap Act.events) := Engine.traffic_after _ acts
  have hproper : e.traffic.flights.Proper := htraffic ▸ Traffic.proper_after _
  have hreports := e.traffic.flights.cache.reports_occupancy
  have hinitial := initialViews_eq_zero hproper
  refine ⟨rfl, ?_, ?_, hreports, hinitial, ?_, fun scope => ?_⟩
  · obtain ⟨calls, hcalls, hcount⟩ := Traffic.count_after (acts.flatMap Act.events)
    exact ⟨calls, hcalls, htraffic ▸ hcount⟩
  · simp [Report.of, newline_not_mem_duration]
  · have htotal := hreports.total
    rw [hinitial, Nat.zero_add] at htotal
    exact htotal.symm
  · exact (hreports.mem_marked scope).trans (hproper.marked scope)

/-- **The printout agrees with the engine.** After any acts, the printout of what the engine
answers, whatever came with the two requests, is a report that agrees with it, line after line:
the renders that were counted, the views, all of them of updates, the scopes that have a view
in order, and the scopes that have a slot in order. As long as no text of such a scope has a
line break of its own, these are the lines of the text. -/
theorem printout_agrees (documents files cleanupDelay) (acts : List Act) (params params' : Json) :
    let e := (Engine.start documents files cleanupDelay).after acts
    ∃ (renders cache : Json) (r : Report),
      (call "render_stats" params e).1 = .ok renders ∧
      (call "cache_stats" params' e).1 = .ok cache ∧
      r.Agrees acts e ∧
      (printout renders cache).toList = (r.lines.flatMap fun line => line.toList ++ ['\n']) ∧
      ((∀ scope, e.holds scope = true ∨ scope ∈ e.traffic.flights.slots →
          '\n' ∉ scope.display.toList) →
        (printout renders cache).toList.splitOn '\n' = r.lines.map String.toList ++ [[]]) := by
  intro e
  have hagrees := agrees_after documents files cleanupDelay acts
  have htext := toList_printout e.traffic.flights.durations.figures
    e.traffic.flights.cache.occupancy
  refine ⟨_, _, _, call_renderStats params e, call_cacheStats params' e, hagrees, htext,
    fun hplain => ?_⟩
  rw [htext]
  refine splitOn_lines (newline_not_mem_lines _ fun scope hscope => hplain scope ?_)
  exact hscope.imp RenderedViews.mem_scopes.mp (hagrees.rendering scope).mp

/-- The view of a route has been rendered, and that of the global scope is under way. -/
def busy : List Act :=
  [.render (.arrive 0 ⟨.route "/", .update, true⟩ 0.0), .render (.viewEnds 0 (.ok "home") 0.0),
    .render (.arrive 1 ⟨.global, .update, true⟩ 0.0)]

/-- Each of the two scopes is listed where it belongs. -/
theorem printout_agrees_busy :
    ∃ (renders cache : Json) (r : Report),
      (call "render_stats" .null ((Engine.start default (fun _ => .error .notFound) 0).after
        busy)).1 = .ok renders ∧
      (call "cache_stats" .null ((Engine.start default (fun _ => .error .notFound) 0).after
        busy)).1 = .ok cache ∧
      r.renders = 1 ∧ .route "/" ∈ r.occupancy.scopes ∧ .global ∈ r.occupancy.marked ∧
      (printout renders cache).toList.splitOn '\n' = r.lines.map String.toList ++ [[]] := by
  obtain ⟨renders, cache, r, hrenders, hcache, hagrees, -, hlines⟩ :=
    printout_agrees default (fun _ => .error .notFound) 0 busy .null .null
  have hcount : ((Engine.start default (fun _ => .error .notFound) 0).after
      busy).traffic.flights.durations.count = 1 := by decide +kernel
  have hscopes : ((Engine.start default (fun _ => .error .notFound) 0).after
      busy).traffic.flights.cache.scopes = [.route "/"] := by decide +kernel
  have hslots : ((Engine.start default (fun _ => .error .notFound) 0).after
      busy).traffic.flights.slots.keys = [.global] := by decide +kernel
  generalize (Engine.start default (fun _ => .error .notFound) 0).after busy = e at *
  have hholds : ∀ scope, e.holds scope = true ↔ scope ∈ [.route "/"] := fun scope => by
    rw [← hscopes, RenderedViews.mem_scopes]
    rfl
  have hslot : ∀ scope, scope ∈ e.traffic.flights.slots ↔ scope ∈ [.global] := fun scope => by
    rw [← hslots, ExtTreeMap.mem_keys]
  refine ⟨renders, cache, r, hrenders, hcache, hagrees.renders.trans hcount, ?_, ?_, hlines ?_⟩
  · rw [hagrees.occupancy.mem_scopes, ← RenderedViews.holds_iff]
    exact (hholds _).mpr List.mem_cons_self
  · exact (hagrees.rendering _).mpr ((hslot _).mpr List.mem_cons_self)
  · intro scope hscope
    rw [hholds, hslot, List.mem_singleton, List.mem_singleton] at hscope
    rcases hscope with rfl | rfl <;> decide

/-- The text that is printed for an engine. -/
def Prints (e : Engine) (text : String) : Prop :=
  ∃ renders cache : Json, (call "render_stats" .null e).1 = .ok renders ∧
    (call "cache_stats" .null e).1 = .ok cache ∧ printout renders cache = text

theorem prints_of_report {e : Engine} {o : Occupancy} {text : String}
    (hoccupancy : e.traffic.flights.cache.occupancy = o)
    (htext : (Report.of e.traffic.flights.durations.figures o).lines.flatMap
      (fun line => line.toList ++ ['\n']) = text.toList) : Prints e text := by
  refine ⟨_, _, call_renderStats .null e, call_cacheStats .null e, String.toList_inj.mp ?_⟩
  rw [toList_printout, hoccupancy, htext]

/-- A scope whose text goes on, after a line break, as the line of the global scope does while a
render is under way for it. -/
def forged : Scope := .custom "a\n  GLOBAL (rendering)"

/-- The view of that scope has been rendered, and nothing is under way. -/
def forging : List Act :=
  [.render (.arrive 0 ⟨forged, .update, true⟩ 0.0), .render (.viewEnds 0 (.ok "home") 0.0),
    .render .resetDurations]

/-- The view of another scope has been rendered, and that of the global scope is under way. -/
def flying : List Act :=
  [.render (.arrive 0 ⟨.custom "a", .update, true⟩ 0.0), .render (.viewEnds 0 (.ok "home") 0.0),
    .render (.arrive 1 ⟨.global, .update, true⟩ 0.0), .render .resetDurations]

/-- A line break is printed as it is. So one scope may have two lines, the second of them that of
a render where none is under way, and nothing in the text tells it from a true one. -/
theorem printout_forged :
    let forger := (Engine.start default (fun _ => .error .notFound) 0).after forging
    let flier := (Engine.start default (fun _ => .error .notFound) 0).after flying
    forger.traffic.flights.cache.scopes = [forged] ∧ forger.traffic.flights.slots.keys = [] ∧
      flier.traffic.flights.cache.scopes = [.custom "a"] ∧
      flier.traffic.flights.slots.keys = [.global] ∧
      ∃ text, Prints forger text ∧ Prints flier text ∧ (text.toList.splitOn '\n').drop 2 =
        ["  a", "  GLOBAL (rendering)", ""].map String.toList := by
  intro forger flier
  have hforger : forger.traffic.flights.cache.occupancy = ⟨1, 0, 1, [forged], []⟩ := by
    decide +kernel
  have hflier : flier.traffic.flights.cache.occupancy = ⟨1, 0, 1, [.custom "a"], [.global]⟩ := by
    decide +kernel
  have hdurations : forger.traffic.flights.durations = .empty := rfl
  have hdurations' : flier.traffic.flights.durations = .empty := rfl
  let report := Report.of Durations.empty.figures ⟨1, 0, 1, [.custom "a"], [.global]⟩
  have hlines : ∀ line ∈ report.lines, '\n' ∉ line.toList := by
    refine newline_not_mem_lines _ fun scope hscope => ?_
    rw [List.mem_singleton, List.mem_singleton] at hscope
    rcases hscope with rfl | rfl <;> decide
  refine ⟨by decide +kernel, by decide +kernel, by decide +kernel, by decide +kernel,
    String.ofList (report.lines.flatMap fun line => line.toList ++ ['\n']), ?_, ?_, ?_⟩
  · refine prints_of_report hforger ?_
    rw [hdurations, String.toList_ofList]
    -- The figures are the same in both, and then come the same characters.
    simp only [report, Report.lines, List.append_assoc, List.flatMap_append]
    exact congrArg (List.append _) (by decide)
  · refine prints_of_report hflier ?_
    rw [hdurations', String.toList_ofList]
  · rw [String.toList_ofList, splitOn_lines hlines]
    rfl

end Inspection
end SharedViews

import SharedViews.Decimal.Layout
import SharedViews.Json.Basic

/-! The printout of the statistics.

Two lines of figures, then the scopes that hold a view, then those a render is
under way for, one to a line. The figures are taken from the answers of the
inspection protocol as they come: what is missing or of another kind counts as
zero, and is no scope. Durations are seconds in the answers and milliseconds, to
two places, in the printout. -/
namespace SharedViews.Inspection

/-- A double to two places. -/
def twoPlaces (x : Float) : List Char :=
  match Decimal.Reading.ofFloat x with
  | .finite d => Decimal.fixed 2 d
  | .infinite negative => if negative then "-inf".toList else "inf".toList
  | .undefined => "NaN".toList

def count (answer : Json) (name : String) : List Char :=
  Decimal.digitChars (((answer.field name).nat?).getD 0)

def millis (answer : Json) (name : String) : List Char :=
  twoPlaces (((answer.field name).float?).getD 0.0 * 1000.0) ++ "ms".toList

/-- The texts in a member of the answer that is an array. -/
def names (answer : Json) (member : String) : List String :=
  (((answer.field member).array?).getD []).filterMap Json.string?

def figures (renders cache : Json) : List (List Char) := [
  "renders: ".toList ++ count renders "render_count" ++
    "  avg ".toList ++ millis renders "avg_time" ++ "  min ".toList ++ millis renders "min_time" ++
    "  max ".toList ++ millis renders "max_time" ++
    "  total ".toList ++ millis renders "total_time",
  "cache: ".toList ++ count cache "entries" ++ " entries (".toList ++
    count cache "update_entries" ++ " update, ".toList ++
    count cache "initial_entries" ++ " initial)".toList]

def scopeLines (cache : Json) : List (List Char) :=
  (names cache "scopes").map fun scope => "  ".toList ++ scope.toList

def renderingLines (cache : Json) : List (List Char) :=
  (names cache "rendering").map fun scope => "  ".toList ++ scope.toList ++ " (rendering)".toList

/-- The lines of the printout, from the answers about renders and cache. -/
def printoutLines (renders cache : Json) : List (List Char) :=
  figures renders cache ++ scopeLines cache ++ renderingLines cache

def printout (renders cache : Json) : String :=
  String.ofList ((printoutLines renders cache).flatMap (· ++ ['\n']))

end SharedViews.Inspection

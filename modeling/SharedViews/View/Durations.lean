/-! How long renders take.

Each finished render adds its duration in seconds; what is negative, infinite or
no number counts as zero seconds, but it counts. The figures give the number of
renders, the total, the extremes and the mean, all zero before the first one.
The number stops at the largest word. -/
namespace SharedViews

structure Durations where
  count : Nat
  total : Float
  /-- The shortest so far; none before the first. -/
  shortest : Option Float
  longest : Float
  deriving Inhabited

structure DurationFigures where
  count : Nat
  total : Float
  shortest : Float
  longest : Float
  mean : Float
  deriving Inhabited

namespace Durations

def largestCount : Nat := UInt64.size - 1

def empty : Durations := ⟨0, 0.0, none, 0.0⟩

/-- A duration as it is counted. -/
def counted (seconds : Float) : Float :=
  if seconds.isFinite && 0.0 < seconds then seconds else 0.0

def record (d : Durations) (seconds : Float) : Durations :=
  let s := counted seconds
  { count := min (d.count + 1) largestCount
    total := d.total + s
    shortest := some (match d.shortest with
      | none => s
      | some least => if s < least then s else least)
    longest := if d.longest < s then s else d.longest }

def figures (d : Durations) : DurationFigures :=
  { count := d.count
    total := d.total
    shortest := d.shortest.getD 0.0
    longest := d.longest
    mean := if d.count = 0 then 0.0 else d.total / d.count.toUInt64.toFloat }

/-- Whether nothing can be told from a fresh start. -/
def isFresh (d : Durations) : Bool :=
  d.count == 0 && d.total == 0.0 && d.shortest.isNone && d.longest == 0.0

end Durations
end SharedViews

import SharedViews.Json.Basic

/-! Signals: named values a page shows.

A signal's id is its name, optionally followed by a number sign and whatever
tells it from the signals of other contexts; the name alone is what a page
refers to. -/
namespace SharedViews

structure Signal where
  id : String
  value : Json
  deriving Inhabited

/-- The name in an id: what stands before its first number sign. -/
def Signal.stem (s : Signal) : String := String.ofList (s.id.toList.takeWhile (· ≠ '#'))

end SharedViews

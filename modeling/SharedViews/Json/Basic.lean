import SharedViews.Json.Number

/-! JSON data.

An object holds its members by strictly rising name, each name once; `ofFields`
builds one from members in any order, a later member replacing an earlier one of
its name. Looking into data never fails: a member that is absent, or sought in
something that is no object, is `null`. -/
namespace SharedViews

inductive Json
  | null
  | bool (b : Bool)
  | number (n : Json.Number)
  | string (s : String)
  | array (values : List Json)
  | object (fields : List (String × Json))
  deriving Inhabited

namespace Json

abbrev Fields := List (String × Json)

/-- Sets a member, keeping names strictly rising. -/
def Fields.insert (name : String) (value : Json) : Fields → Fields
  | [] => [(name, value)]
  | (n, v) :: rest =>
    match compare name n with
    | .lt => (name, value) :: (n, v) :: rest
    | .eq => (name, value) :: rest
    | .gt => (n, v) :: insert name value rest

def Fields.get? (name : String) : Fields → Option Json
  | [] => none
  | (n, v) :: rest => if n = name then some v else get? name rest

theorem Fields.get?_insert (fields : Fields) (name sought : String) (value : Json) :
    Fields.get? sought (Fields.insert name value fields) =
      if name = sought then some value else Fields.get? sought fields := by
  induction fields with
  | nil => simp [Fields.insert, Fields.get?]
  | cons field rest ih =>
    obtain ⟨n, v⟩ := field
    unfold Fields.insert
    cases h : compare name n with
    | lt => simp [Fields.get?]
    | eq =>
      have hn : name = n := Std.LawfulEqOrd.eq_of_compare h
      subst hn
      by_cases hs : name = sought <;> simp [Fields.get?, hs]
    | gt =>
      have hn : name ≠ n := by
        rintro rfl
        simp at h
      by_cases hs : n = sought
      · subst hs; simp [Fields.get?, hn]
      · simp [Fields.get?, hs, ih]

/-- The last member given for each name. -/
def Fields.ofList (fields : List (String × Json)) : Fields :=
  fields.foldl (fun kept (n, v) => Fields.insert n v kept) []

def ofFields (fields : List (String × Json)) : Json := .object (Fields.ofList fields)

def ofNat (n : Nat) : Json := .number (.integer n)

def ofInt (n : Int) : Json := .number (.integer n)

def strings (values : List String) : Json := .array (values.map .string)

/-- `null` for nothing. -/
def ofOption : Option Json → Json
  | none => .null
  | some v => v

/-! ### Looking inside -/

def field? (name : String) : Json → Option Json
  | .object fields => Fields.get? name fields
  | _ => none

def field (name : String) (data : Json) : Json := (data.field? name).getD .null

def string? : Json → Option String
  | .string s => some s
  | _ => none

def bool? : Json → Option Bool
  | .bool b => some b
  | _ => none

def array? : Json → Option (List Json)
  | .array values => some values
  | _ => none

def nat? : Json → Option Nat
  | .number n => n.toNat?
  | _ => none

def float? : Json → Option Float
  | .number n => some n.toFloat
  | _ => none

end Json
end SharedViews

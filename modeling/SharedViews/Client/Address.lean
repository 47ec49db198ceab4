import SharedViews.Client.Timestamp

/-! Socket addresses and their text.

An address of version four is four bytes written with points and no superfluous
zeros; one of version six is eight groups of sixteen bits in brackets, the first
longest run of two zero groups or more left out, with the zone of a link-local
address behind a percent sign. Both end in the number of an endpoint. The last
two groups may be given as an address of version four, and are written so when
the groups before them mark it as one. -/
namespace SharedViews

inductive Address
  | v4 (bytes : List Nat) (endpoint : Nat)
  | v6 (groups : List Nat) (zone : Nat) (endpoint : Nat)
  deriving DecidableEq, Inhabited, Repr

namespace Address
open Timestamp (Reader digitsValue isDigit)

/-! ### Writing -/

def joinWith (separator : Char) : List (List Char) → List Char
  | [] => []
  | [cs] => cs
  | cs :: rest => cs ++ separator :: joinWith separator rest

def bytesChars (bytes : List Nat) : List Char := joinWith '.' (bytes.map Decimal.digitChars)

def groupsChars (groups : List Nat) : List Char := joinWith ':' (groups.map (Nat.toDigits 16))

/-- How many zeros the list begins with. -/
def leadingZeros (groups : List Nat) : Nat := (groups.takeWhile (· == 0)).length

/-- Where the first longest run of zeros begins, and how long it is. -/
def longestRun (groups : List Nat) : Nat × Nat :=
  (List.range groups.length).foldl
    (fun best start =>
      let length := leadingZeros (groups.drop start)
      if best.2 < length then (start, length) else best)
    (0, 0)

def hostChars (groups : List Nat) : List Char :=
  match groups with
  | [0, 0, 0, 0, 0, 0xFFFF, high, low] =>
    "::ffff:".toList ++ bytesChars [high / 256, high % 256, low / 256, low % 256]
  | _ =>
    let (start, length) := longestRun groups
    if 1 < length then
      groupsChars (groups.take start) ++ ':' :: ':' :: groupsChars (groups.drop (start + length))
    else groupsChars groups

def chars : Address → List Char
  | v4 bytes endpoint => bytesChars bytes ++ ':' :: Decimal.digitChars endpoint
  | v6 groups zone endpoint =>
    '[' :: hostChars groups ++ (if zone = 0 then [] else '%' :: Decimal.digitChars zone) ++
      ']' :: ':' :: Decimal.digitChars endpoint

def text (a : Address) : String := String.ofList a.chars

/-! ### Reading -/

/-- A decimal number up to `limit`. -/
def decimal (limit : Nat) : Reader Nat := fun cs =>
  match cs.takeWhile isDigit with
  | [] => none
  | ds =>
    let n := digitsValue ds
    if n ≤ limit then some (n, cs.drop ds.length) else none

/-- A byte: at most three digits, no zero in front of others. -/
def byte : Reader Nat := fun cs =>
  match cs.takeWhile isDigit with
  | [] => none
  | '0' :: _ :: _ => none
  | ds =>
    let n := digitsValue ds
    if ds.length ≤ 3 && n ≤ 255 then some (n, cs.drop ds.length) else none

/-- Four bytes with points between them. -/
def fourBytes : Reader (List Nat) := fun cs => do
  let (a, cs) ← byte cs
  let some cs := after '.' cs | none
  let (b, cs) ← byte cs
  let some cs := after '.' cs | none
  let (c, cs) ← byte cs
  let some cs := after '.' cs | none
  let (d, cs) ← byte cs
  some ([a, b, c, d], cs)
where
  after (c : Char) : List Char → Option (List Char)
    | d :: rest => if d = c then some rest else none
    | [] => none

def hexValue? (c : Char) : Option Nat :=
  if '0' ≤ c ∧ c ≤ '9' then some (c.toNat - '0'.toNat)
  else if 'a' ≤ c ∧ c ≤ 'f' then some (c.toNat - 'a'.toNat + 10)
  else if 'A' ≤ c ∧ c ≤ 'F' then some (c.toNat - 'A'.toNat + 10)
  else none

/-- A group: one to four digits to the base sixteen. -/
def group : Reader Nat := fun cs =>
  let ds := cs.takeWhile fun c => (hexValue? c).isSome
  if ds.isEmpty || 4 < ds.length then none
  else some (ds.foldl (fun n c => n * 16 + (hexValue? c).getD 0) 0, cs.drop ds.length)

/-- Up to `limit` groups with colons between them, the last two possibly as four
bytes; the flag says whether they were. The colon before a group belongs to it:
what does not begin another group is left. -/
def groups : Nat → Bool → List Char → List Nat × Bool × List Char
  | 0, _, cs => ([], false, cs)
  | limit + 1, first, cs =>
    let inner := if first then some cs else fourBytes.after ':' cs
    match inner with
    | none => ([], false, cs)
    | some inner =>
      match if limit = 0 then none else fourBytes inner with
      | some ([a, b, c, d], rest) => ([a * 256 + b, c * 256 + d], true, rest)
      | _ =>
        match group inner with
        | none => ([], false, cs)
        | some (g, rest) =>
          let (gs, bytes, rest) := groups limit false rest
          (g :: gs, bytes, rest)

/-- The eight groups of a host, with at most one gap of zeros. -/
def host : Reader (List Nat) := fun cs =>
  let (front, bytes, rest) := groups 8 true cs
  if front.length = 8 then some (front, rest)
  else if bytes then none
  else match rest with
    | ':' :: ':' :: rest =>
      let (back, _, rest) := groups (7 - front.length) true rest
      some (front ++ List.replicate (8 - front.length - back.length) 0 ++ back, rest)
    | _ => none

/-- The endpoint at the end of an address. -/
def endpoint (cs : List Char) : Option Nat := do
  let cs ← fourBytes.after ':' cs
  let (n, rest) ← decimal 65535 cs
  if rest.isEmpty then some n else none

def parseV4 (cs : List Char) : Option Address := do
  let (bytes, rest) ← fourBytes cs
  (endpoint rest).map (v4 bytes)

def parseV6 (cs : List Char) : Option Address := do
  let cs ← fourBytes.after '[' cs
  let (host, cs) ← host cs
  let (zone, cs) ← match cs with
    | '%' :: rest => decimal (UInt32.size - 1) rest
    | _ => some (0, cs)
  let cs ← fourBytes.after ']' cs
  (endpoint cs).map (v6 host zone)

/-- The address a text names. -/
def parse (s : String) : Option Address := (parseV4 s.toList).or (parseV6 s.toList)

end Address
end SharedViews

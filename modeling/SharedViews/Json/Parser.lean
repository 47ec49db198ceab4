import SharedViews.Json.Basic

/-! Reading JSON text.

The reader takes the grammar strictly: no comment, no trailing comma, no leading
zero, no control character inside a string, no half of a surrogate pair. Arrays
and objects may be nested up to a depth the caller gives. Each step returns what
it read and the text that follows, which is shorter than the text before it, so
the length of the text bounds the number of steps. -/
namespace SharedViews.Json

/-- Blanks between tokens. -/
def isGap (c : Char) : Bool := c = ' ' || c = '\n' || c = '\t' || c = '\r'

def skipGaps (cs : List Char) : List Char := cs.dropWhile isGap

/-- The value of a digit to the base sixteen. -/
def hexValue? (c : Char) : Option Nat :=
  if '0' ≤ c ∧ c ≤ '9' then some (c.toNat - '0'.toNat)
  else if 'a' ≤ c ∧ c ≤ 'f' then some (c.toNat - 'a'.toNat + 10)
  else if 'A' ≤ c ∧ c ≤ 'F' then some (c.toNat - 'A'.toNat + 10)
  else none

/-- Four digits to the base sixteen. -/
def readUnit : List Char → Option (Nat × List Char)
  | a :: b :: c :: d :: rest => do
    let a ← hexValue? a
    let b ← hexValue? b
    let c ← hexValue? c
    let d ← hexValue? d
    some (((a * 16 + b) * 16 + c) * 16 + d, rest)
  | _ => none

/-- A `\u` escape behind its letter: one unit, or the two of a surrogate pair. -/
def readEscapedUnit (cs : List Char) : Option (Char × List Char) := do
  let (high, rest) ← readUnit cs
  if 0xD800 ≤ high ∧ high < 0xDC00 then
    match rest with
    | '\\' :: 'u' :: rest =>
      let (low, rest) ← readUnit rest
      if 0xDC00 ≤ low ∧ low < 0xE000 then
        some (Char.ofNat (0x10000 + (high - 0xD800) * 0x400 + (low - 0xDC00)), rest)
      else none
    | _ => none
  else if 0xDC00 ≤ high ∧ high < 0xE000 then none
  else some (Char.ofNat high, rest)

/-- A string behind its opening mark. -/
def readString : Nat → List Char → Option (List Char × List Char)
  | 0, _ => none
  | fuel + 1, cs =>
    match cs with
    | [] => none
    | '"' :: rest => some ([], rest)
    | '\\' :: rest => do
      let (c, rest) ← match rest with
        | '"' :: rest => some ('"', rest)
        | '\\' :: rest => some ('\\', rest)
        | '/' :: rest => some ('/', rest)
        | 'b' :: rest => some ('\x08', rest)
        | 'f' :: rest => some ('\x0c', rest)
        | 'n' :: rest => some ('\n', rest)
        | 'r' :: rest => some ('\r', rest)
        | 't' :: rest => some ('\t', rest)
        | 'u' :: rest => readEscapedUnit rest
        | _ => none
      let (text, rest) ← readString fuel rest
      some (c :: text, rest)
    | c :: rest =>
      if c.toNat < 0x20 then none
      else do
        let (text, rest) ← readString fuel rest
        some (c :: text, rest)

/-! ### Numbers -/

def digits (cs : List Char) : List Char × List Char := (cs.takeWhile Char.isDigit, cs.dropWhile Char.isDigit)

/-- An exponent behind its letter. -/
def readExponent (cs : List Char) : Option (Int × List Char) :=
  let (negative, cs) := match cs with
    | '+' :: rest => (false, rest)
    | '-' :: rest => (true, rest)
    | _ => (false, cs)
  match digits cs with
  | ([], _) => none
  | (ds, rest) =>
    let n : Nat := ds.foldl (fun n c => n * 10 + (c.toNat - '0'.toNat)) 0
    some (if negative then -(n : Int) else n, rest)

/-- The parts of a number behind its sign: digits, with no zero in front of
others, then a fraction and an exponent if they follow. -/
def readNumber (negative : Bool) (cs : List Char) : Option (Number × List Char) := do
  let (whole, rest) := digits cs
  match whole with
  | [] => none
  | '0' :: _ :: _ => none
  | _ =>
    let (fraction, rest) ← match rest with
      | '.' :: rest =>
        match digits rest with
        | ([], _) => none
        | (ds, rest) => some (some ds, rest)
      | _ => some (none, rest)
    let (exponent, rest) ← match rest with
      | 'e' :: rest | 'E' :: rest => (readExponent rest).map fun (e, rest) => (some e, rest)
      | _ => some (none, rest)
    let n ← Number.ofParts negative whole fraction exponent
    some (n, rest)

/-! ### Values -/

mutual

/-- A value, gaps before it skipped. `depth` is how deep arrays and objects may
still be nested. -/
def readValue : Nat → Nat → List Char → Option (Json × List Char)
  | 0, _, _ => none
  | fuel + 1, depth, cs =>
    match skipGaps cs with
    | 'n' :: 'u' :: 'l' :: 'l' :: rest => some (.null, rest)
    | 't' :: 'r' :: 'u' :: 'e' :: rest => some (.bool true, rest)
    | 'f' :: 'a' :: 'l' :: 's' :: 'e' :: rest => some (.bool false, rest)
    | '"' :: rest => (readString fuel rest).map fun (s, rest) => (.string (String.ofList s), rest)
    | '[' :: rest =>
      if depth = 0 then none
      else match skipGaps rest with
        | ']' :: rest => some (.array [], rest)
        | rest => (readElements fuel (depth - 1) rest).map fun (vs, rest) => (.array vs, rest)
    | '\x7b' :: rest =>
      if depth = 0 then none
      else match skipGaps rest with
        | '\x7d' :: rest => some (.object [], rest)
        | rest => (readMembers fuel (depth - 1) rest).map fun (fs, rest) => (ofFields fs, rest)
    | '-' :: rest => (readNumber true rest).map fun (n, rest) => (.number n, rest)
    | rest => (readNumber false rest).map fun (n, rest) => (.number n, rest)

/-- One element or more, to the closing bracket. -/
def readElements : Nat → Nat → List Char → Option (List Json × List Char)
  | 0, _, _ => none
  | fuel + 1, depth, cs => do
    let (v, rest) ← readValue fuel depth cs
    match skipGaps rest with
    | ']' :: rest => some ([v], rest)
    | ',' :: rest => (readElements fuel depth rest).map fun (vs, rest) => (v :: vs, rest)
    | _ => none

/-- One member or more, to the closing brace. -/
def readMembers : Nat → Nat → List Char → Option (List (String × Json) × List Char)
  | 0, _, _ => none
  | fuel + 1, depth, cs =>
    match skipGaps cs with
    | '"' :: rest => do
      let (name, rest) ← readString fuel rest
      match skipGaps rest with
      | ':' :: rest => do
        let (v, rest) ← readValue fuel depth rest
        let member := (String.ofList name, v)
        match skipGaps rest with
        | '\x7d' :: rest => some ([member], rest)
        | ',' :: rest => (readMembers fuel depth rest).map fun (fs, rest) => (member :: fs, rest)
        | _ => none
      | _ => none
    | _ => none

end

/-- The nesting a reader allows unless told otherwise. -/
def defaultDepth : Nat := 127

/-- The data a text holds, if it is JSON and nothing else. -/
def parseChars (cs : List Char) (depth : Nat := defaultDepth) : Option Json :=
  match readValue (2 * cs.length + 2) depth cs with
  | some (v, rest) => if (skipGaps rest).isEmpty then some v else none
  | none => none

def parse (s : String) : Option Json := parseChars s.toList

end SharedViews.Json

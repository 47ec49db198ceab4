/-! The text of a settings file.

A settings file is a list of entries, one to a line: a key, an equals sign and a
value. Keys are bare words or quoted. Values are integers, strings and arrays;
since no setting is a number with a point, a truth value, a date or a table, those
forms are refused where they stand, as are table headings and keys with points.

Integers are decimal with an optional sign, or hexadecimal, octal or binary
behind `0x`, `0o` and `0b`; a single underscore may stand between two digits.
Strings are basic, with escapes, or literal, without, and either may be written
in triple quotes over several lines, a line break right behind the opening quotes
being dropped. Only arrays and triple-quoted strings may contain line breaks. -/
namespace SharedViews.Settings

inductive Value
  | integer (n : Int)
  | string (s : String)
  | array (values : List Value)
  deriving Inhabited

abbrev Reader (α : Type) := List Char → Option (α × List Char)

/-! ### Blanks, line breaks and comments -/

def isGap (c : Char) : Bool := c = ' ' || c = '\t'

def skipGaps (cs : List Char) : List Char := cs.dropWhile isGap

/-- What follows a line break. -/
def lineBreak? : List Char → Option (List Char)
  | '\n' :: rest => some rest
  | '\r' :: '\n' :: rest => some rest
  | _ => none

/-- Characters a comment may hold, and a string where nothing else is said:
no control character but the tab. -/
def isPrintable (c : Char) : Bool := c = '\t' || (0x20 ≤ c.toNat && c.toNat ≠ 0x7F)

/-- A comment, if one begins here, without the line break behind it. -/
def skipComment : List Char → List Char
  | '#' :: rest => rest.dropWhile isPrintable
  | cs => cs

/-- The rest of a line that holds nothing more but a comment. -/
def endLine (cs : List Char) : Option (List Char) :=
  match skipComment (skipGaps cs) with
  | [] => some []
  | cs => lineBreak? cs

/-- Blanks, line breaks and comments, as they may stand inside an array. -/
def skipLines : Nat → List Char → List Char
  | 0, cs => cs
  | fuel + 1, cs =>
    let cs := skipGaps cs
    match lineBreak? (skipComment cs) with
    | some rest => skipLines fuel rest
    | none => cs

/-! ### Integers -/

/-- The value of a digit, to whatever base it may belong. -/
def digitValue? (c : Char) : Option Nat :=
  if '0' ≤ c ∧ c ≤ '9' then some (c.toNat - '0'.toNat)
  else if 'a' ≤ c ∧ c ≤ 'f' then some (c.toNat - 'a'.toNat + 10)
  else if 'A' ≤ c ∧ c ≤ 'F' then some (c.toNat - 'A'.toNat + 10)
  else none

def isDigitOf (base : Nat) (c : Char) : Bool := (digitValue? c).any (· < base)

/-- The digits of a number, single underscores between them left out. -/
def digitsOf (base : Nat) : List Char → List Char × List Char
  | '_' :: d :: rest =>
    if isDigitOf base d then let (ds, rest) := digitsOf base rest; (d :: ds, rest)
    else ([], '_' :: d :: rest)
  | d :: rest =>
    if isDigitOf base d then let (ds, rest) := digitsOf base rest; (d :: ds, rest)
    else ([], d :: rest)
  | [] => ([], [])

def valueOf (base : Nat) (ds : List Char) : Nat :=
  ds.foldl (fun n d => n * base + (digitValue? d).getD 0) 0

/-- One digit or more, the first not behind an underscore. -/
def natural (base : Nat) (cs : List Char) : Option (List Char × List Char) :=
  match cs with
  | d :: _ => if isDigitOf base d then some (digitsOf base cs) else none
  | [] => none

/-- A decimal number has no zero in front of other digits. -/
def decimal (negative : Bool) : Reader Int := fun cs => do
  let (ds, rest) ← natural 10 cs
  match ds with
  | '0' :: _ :: _ => none
  | _ => some (if negative then -(valueOf 10 ds : Int) else valueOf 10 ds, rest)

def based (base : Nat) : Reader Int := fun cs =>
  (natural base cs).map fun (ds, rest) => ((valueOf base ds : Int), rest)

/-- An integer that fits in sixty-four bits with its sign. -/
def integer : Reader Int := fun cs => do
  let (n, rest) ← match cs with
    | '+' :: rest => decimal false rest
    | '-' :: rest => decimal true rest
    | '0' :: 'x' :: rest => based 16 rest
    | '0' :: 'o' :: rest => based 8 rest
    | '0' :: 'b' :: rest => based 2 rest
    | cs => decimal false cs
  if Int64.minValue.toInt ≤ n ∧ n ≤ Int64.maxValue.toInt then some (n, rest) else none

/-! ### Strings -/

/-- The character with a number of so many digits. -/
def numbered (width : Nat) : Reader Char := fun cs =>
  let ds := cs.take width
  let n := valueOf 16 ds
  if ds.length = width && ds.all (isDigitOf 16) && (n < 0xD800 || (0xE000 ≤ n && n < 0x110000)) then
    some (Char.ofNat n, cs.drop width)
  else none

/-- An escape behind its backslash. -/
def escape : Reader Char
  | 'b' :: rest => some ('\x08', rest)
  | 't' :: rest => some ('\t', rest)
  | 'n' :: rest => some ('\n', rest)
  | 'f' :: rest => some ('\x0c', rest)
  | 'r' :: rest => some ('\r', rest)
  | '"' :: rest => some ('"', rest)
  | '\\' :: rest => some ('\\', rest)
  | 'u' :: rest => numbered 4 rest
  | 'U' :: rest => numbered 8 rest
  | _ => none

/-- A basic string of one line behind its opening quote. -/
def basic : Nat → Reader (List Char)
  | 0, _ => none
  | fuel + 1, cs =>
    match cs with
    | '"' :: rest => some ([], rest)
    | '\\' :: rest => do
      let (c, rest) ← escape rest
      let (s, rest) ← basic fuel rest
      some (c :: s, rest)
    | c :: rest =>
      if isPrintable c then (basic fuel rest).map fun (s, rest) => (c :: s, rest) else none
    | [] => none

/-- A literal string of one line behind its opening quote. -/
def literal : Reader (List Char)
  | '\'' :: rest => some ([], rest)
  | c :: rest =>
    if isPrintable c then (literal rest).map fun (s, rest) => (c :: s, rest) else none
  | [] => none

/-- A run of quotes inside a triple-quoted string: up to two belong to the text;
three end it, and the one or two before them belong to the text. -/
def closing (quote : Char) (cs : List Char) : Option (List Char) × List Char × List Char :=
  let run := cs.takeWhile (· = quote)
  let rest := cs.drop (min run.length 5)
  if run.length < 3 then (none, run, rest)
  else (some (List.replicate (min run.length 5 - 3) quote), [], rest)

/-- The blanks and line breaks after a backslash at the end of a line. -/
def skipBreaks (cs : List Char) : Option (List Char) :=
  (lineBreak? (skipGaps cs)).map (more cs.length)
where
  more : Nat → List Char → List Char
    | 0, cs => cs
    | fuel + 1, cs =>
      let cs := skipGaps cs
      match lineBreak? cs with
      | some rest => more fuel rest
      | none => cs

/-- A triple-quoted string behind its opening quotes. -/
def multiline (quote : Char) : Nat → Reader (List Char)
  | 0, _ => none
  | fuel + 1, cs =>
    match cs with
    | [] => none
    | c :: rest =>
      if c = quote then
        match closing quote cs with
        | (some text, _, rest) => some (text, rest)
        | (none, run, rest) => (multiline quote fuel rest).map fun (s, rest) => (run ++ s, rest)
      else if c = '\\' ∧ quote = '"' then
        match skipBreaks rest with
        | some rest => multiline quote fuel rest
        | none => do
          let (c, rest) ← escape rest
          let (s, rest) ← multiline quote fuel rest
          some (c :: s, rest)
      else
        match lineBreak? cs with
        | some rest => (multiline quote fuel rest).map fun (s, rest) => ('\n' :: s, rest)
        | none =>
          if isPrintable c then (multiline quote fuel rest).map fun (s, rest) => (c :: s, rest)
          else none

/-- A triple-quoted string, a line break right behind its opening quotes
dropped. -/
def tripled (quote : Char) : Reader (List Char) := fun cs =>
  let body := (lineBreak? cs).getD cs
  multiline quote (body.length + 1) body

/-! ### Values -/

def stringValue : List Char × List Char → Value × List Char
  | (s, rest) => (.string (String.ofList s), rest)

mutual

def value : Nat → Reader Value
  | 0, _ => none
  | fuel + 1, cs =>
    match cs with
    | '"' :: '"' :: '"' :: rest => (tripled '"' rest).map stringValue
    | '\'' :: '\'' :: '\'' :: rest => (tripled '\'' rest).map stringValue
    | '"' :: rest => (basic (rest.length + 1) rest).map stringValue
    | '\'' :: rest => (literal rest).map stringValue
    | '[' :: rest => (elements fuel rest).map fun (vs, rest) => (.array vs, rest)
    | cs => (integer cs).map fun (n, rest) => (.integer n, rest)

/-- The elements of an array to its closing bracket; a comma may follow the last. -/
def elements : Nat → Reader (List Value)
  | 0, _ => none
  | fuel + 1, cs =>
    match skipLines (cs.length + 1) cs with
    | ']' :: rest => some ([], rest)
    | cs => do
      let (v, rest) ← value fuel cs
      match skipLines (rest.length + 1) rest with
      | ',' :: rest => (elements fuel rest).map fun (vs, rest) => (v :: vs, rest)
      | ']' :: rest => some ([v], rest)
      | _ => none

end

/-! ### Entries -/

def isBare (c : Char) : Bool :=
  ('a' ≤ c && c ≤ 'z') || ('A' ≤ c && c ≤ 'Z') || ('0' ≤ c && c ≤ '9') || c = '_' || c = '-'

def key : Reader String := fun cs =>
  match cs with
  | '"' :: rest => (basic (rest.length + 1) rest).map fun (s, rest) => (String.ofList s, rest)
  | '\'' :: rest => (literal rest).map fun (s, rest) => (String.ofList s, rest)
  | cs =>
    let word := cs.takeWhile isBare
    if word.isEmpty then none else some (String.ofList word, cs.drop word.length)

def entry : Reader (String × Value) := fun cs => do
  let (name, rest) ← key cs
  match skipGaps rest with
  | '=' :: rest =>
    let (v, rest) ← value (rest.length + 1) (skipGaps rest)
    let rest ← endLine rest
    some ((name, v), rest)
  | _ => none

def entries : Nat → List Char → Option (List (String × Value))
  | 0, _ => none
  | fuel + 1, cs =>
    if cs.isEmpty then some []
    else
      match endLine cs with
      | some rest => entries fuel rest
      | none => do
        let (e, rest) ← entry (skipGaps cs)
        (entries fuel rest).map (e :: ·)

/-- The entries of a file, in order. A byte order mark in front is skipped. -/
def parse (text : String) : Option (List (String × Value)) :=
  match text.toList with
  | '\ufeff' :: cs => entries (cs.length + 1) cs
  | cs => entries (cs.length + 1) cs

end SharedViews.Settings

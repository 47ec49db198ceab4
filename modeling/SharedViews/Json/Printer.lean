import SharedViews.Json.Basic

/-! JSON text.

Two layouts of the same data: `text` puts everything on one line without blanks,
`prettyText` gives each element and member a line of its own, indented by two
blanks a level, and leaves what is empty on one line. In a string only the
quotation mark, the backslash and the control characters below the blank are
escaped, by a letter where there is one and by four digits otherwise. -/
namespace SharedViews.Json

/-- A number below sixteen as its digit. -/
def hexDigit (n : Nat) : Char := Nat.digitChar n

/-- One character inside a string. -/
def escapeChar (c : Char) : List Char :=
  if c = '"' then ['\\', '"']
  else if c = '\\' then ['\\', '\\']
  else if c = '\x08' then ['\\', 'b']
  else if c = '\x0c' then ['\\', 'f']
  else if c = '\n' then ['\\', 'n']
  else if c = '\r' then ['\\', 'r']
  else if c = '\t' then ['\\', 't']
  else if c.toNat < 0x20 then ['\\', 'u', '0', '0', hexDigit (c.toNat / 16), hexDigit (c.toNat % 16)]
  else [c]

def stringChars (s : String) : List Char :=
  '"' :: (s.toList.flatMap escapeChar ++ ['"'])

mutual

/-- Data on one line. -/
def chars : Json → List Char
  | .null => "null".toList
  | .bool b => if b then "true".toList else "false".toList
  | .number n => n.chars
  | .string s => stringChars s
  | .array values => '[' :: (elementChars values ++ [']'])
  | .object fields => '\x7b' :: (memberChars fields ++ ['\x7d'])

def elementChars : List Json → List Char
  | [] => []
  | [v] => chars v
  | v :: rest => chars v ++ ',' :: elementChars rest

def memberChars : List (String × Json) → List Char
  | [] => []
  | [(n, v)] => stringChars n ++ ':' :: chars v
  | (n, v) :: rest => stringChars n ++ ':' :: (chars v ++ ',' :: memberChars rest)

end

def text (data : Json) : String := String.ofList data.chars

/-! ### One line per element -/

def lineBreak (level : Nat) : List Char := '\n' :: List.replicate (2 * level) ' '

mutual

def prettyChars (level : Nat) : Json → List Char
  | .array [] => ['[', ']']
  | .array (v :: rest) =>
    '[' :: (prettyElements (level + 1) (v :: rest) ++ lineBreak level ++ [']'])
  | .object [] => ['\x7b', '\x7d']
  | .object (f :: rest) =>
    '\x7b' :: (prettyMembers (level + 1) (f :: rest) ++ lineBreak level ++ ['\x7d'])
  | .null => "null".toList
  | .bool b => if b then "true".toList else "false".toList
  | .number n => n.chars
  | .string s => stringChars s

def prettyElements (level : Nat) : List Json → List Char
  | [] => []
  | [v] => lineBreak level ++ prettyChars level v
  | v :: rest => lineBreak level ++ prettyChars level v ++ ',' :: prettyElements level rest

def prettyMembers (level : Nat) : List (String × Json) → List Char
  | [] => []
  | [(n, v)] => lineBreak level ++ stringChars n ++ ':' :: ' ' :: prettyChars level v
  | (n, v) :: rest =>
    lineBreak level ++ stringChars n ++ ':' :: ' ' ::
      (prettyChars level v ++ ',' :: prettyMembers level rest)

end

def prettyText (data : Json) : String := String.ofList (data.prettyChars 0)

end SharedViews.Json

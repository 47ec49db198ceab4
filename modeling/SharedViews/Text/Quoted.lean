import SharedViews.Text.Invisible

/-! Text in quotation marks, for messages.

A quotation can be read back: the mark itself and the backslash are preceded by
a backslash, the line breaks, the tab and the null character have their letter,
and every other invisible character is spelled by its number in braces. All
other characters stand for themselves, the apostrophe included. -/
namespace SharedViews.Text

/-- The digits of a number to the base sixteen, most significant first. -/
def hex (n : Nat) : List Char := Nat.toDigits 16 n

/-- One character as a quotation writes it. -/
def quoteChar (c : Char) : List Char :=
  if c = '"' then ['\\', '"']
  else if c = '\\' then ['\\', '\\']
  else if c = '\n' then ['\\', 'n']
  else if c = '\r' then ['\\', 'r']
  else if c = '\t' then ['\\', 't']
  else if c = Char.ofNat 0 then ['\\', '0']
  else if isInvisible c then ['\\', 'u', '\x7b'] ++ hex c.toNat ++ ['\x7d']
  else [c]

/-- A text in quotation marks. -/
def quote (s : String) : String :=
  String.ofList ('"' :: (s.toList.flatMap quoteChar ++ ['"']))

end SharedViews.Text

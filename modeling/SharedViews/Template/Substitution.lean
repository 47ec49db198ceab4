import SharedViews.Text.Blank

/-! Filling the tokens of a text.

A token is whatever stands between two opening and two closing braces; its key is
that text without the blanks around it. A text is read once, from left to right,
into pieces — single characters and tokens — before any of them is filled, so
what is filled in is never read again and cannot open or close a token. Two
opening braces that are never closed are ordinary characters, and so is all that
follows them. -/
namespace SharedViews.Template

inductive Piece
  | char (c : Char)
  | token (inner : List Char)
  deriving DecidableEq, Repr

/-- The pieces of a text. Inside a token, its characters so far are at hand in
reverse. -/
def pieces : Option (List Char) → List Char → List Piece
  | none, [] => []
  | none, '\x7b' :: '\x7b' :: rest => pieces (some []) rest
  | none, c :: rest => .char c :: pieces none rest
  | some inner, [] => .char '\x7b' :: .char '\x7b' :: inner.reverse.map .char
  | some inner, '\x7d' :: '\x7d' :: rest => .token inner.reverse :: pieces none rest
  | some inner, c :: rest => pieces (some (c :: inner)) rest

/-- A token as it was written. -/
def written (inner : List Char) : List Char :=
  '\x7b' :: '\x7b' :: (inner ++ ['\x7d', '\x7d'])

/-- A piece with its token filled, or kept as written if nothing is known under
its key. -/
def Piece.fill (lookup : String → Option String) : Piece → List Char
  | .char c => [c]
  | .token inner =>
    match lookup (String.ofList (Text.trimChars inner)) with
    | some value => value.toList
    | none => written inner

/-- A text with its tokens filled. -/
def substituteChars (lookup : String → Option String) (source : List Char) : List Char :=
  (pieces none source).flatMap (·.fill lookup)

def substitute (lookup : String → Option String) (source : String) : String :=
  String.ofList (substituteChars lookup source.toList)

/-! ### Nothing is lost -/

/-- Characters taken as pieces spell themselves. -/
theorem flatMap_map_char (lookup : String → Option String) (cs : List Char) :
    (cs.map Piece.char).flatMap (·.fill lookup) = cs := by
  induction cs with
  | nil => rfl
  | cons c rest ih => simpa [Piece.fill] using ih

/-- The pieces of a text, as written, spell the text. -/
theorem flatMap_pieces (inner : Option (List Char)) (source : List Char) :
    (pieces inner source).flatMap (·.fill fun _ => none) =
      (match inner with
        | none => source
        | some cs => '\x7b' :: '\x7b' :: (cs.reverse ++ source)) := by
  fun_induction pieces inner source with
  | case4 cs =>
    simpa [Piece.fill] using flatMap_map_char (fun _ => none) cs.reverse
  | _ => simp_all [Piece.fill, written]

/-- A text is unchanged when nothing is known. -/
theorem substitute_none (source : String) : substitute (fun _ => none) source = source := by
  simp [substitute, substituteChars, flatMap_pieces none]

end SharedViews.Template

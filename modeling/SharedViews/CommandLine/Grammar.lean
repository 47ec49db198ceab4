/-! Reading the words of a command line.

A level of a command line — the program itself or one of its commands — takes
options, each with a value, perhaps one positional word, and perhaps a command
with whose level it goes on. An option's value stands behind it as a word of its
own, behind an equals sign, or right behind its one-letter name. A word that
begins with a dash is never such a value, and two dashes alone make every later
word positional.

A value is checked when the next option or positional word begins, or at the end:
so of two faults it is not always the leftmost that is reported. `Pending` is the
argument that waits for its value or its check. -/
namespace SharedViews.CommandLine

/-- What is wrong with a command line, or that it asks for help. -/
inductive Fault
  /-- Help about a command; about the program itself if the name is empty. -/
  | help (command : String)
  | nothingGiven
  | missingCommand
  | unknownCommand
  | unknownArgument
  | missingArgument
  /-- An option without a value, or an empty one where that is none. -/
  | missingValue
  | badValue
  | repeated
  /-- A value for an option that takes none. -/
  | superfluousValue
  deriving DecidableEq, Inhabited, Repr

/-- Asking for help is no failure. -/
def Fault.status : Fault → Nat
  | .help _ => 0
  | _ => 2

/-- What values an argument takes. -/
inductive ValueKind
  | text
  | path
  | count
  deriving DecidableEq, Inhabited, Repr

/-- A count: decimal digits, perhaps behind a plus sign, of at most sixty-four
bits. -/
def parseCount (word : String) : Option Nat :=
  let digits := match word.toList with
    | '+' :: rest => rest
    | cs => cs
  let n := digits.foldl (fun n c => n * 10 + (c.toNat - '0'.toNat)) 0
  if !digits.isEmpty && digits.all Char.isDigit && n < UInt64.size then some n else none

def ValueKind.fault? (kind : ValueKind) (word : String) : Option Fault :=
  match kind with
  | text => none
  | path => if word.isEmpty then some .missingValue else none
  | count => if (parseCount word).isNone then some .badValue else none

/-- What counts where no value is given. -/
inductive Fallback
  /-- A variable of the environment. -/
  | environment (name : String)
  | text (value : String)
  deriving DecidableEq, Inhabited, Repr

structure Argument where
  name : String
  short : Option Char := none
  kind : ValueKind := .text
  about : String := ""
  fallback : Option Fallback := none
  deriving DecidableEq, Inhabited, Repr

structure Level where
  /-- The command's name, empty for the program itself. -/
  name : String := ""
  options : List Argument
  positional : Option Argument := none
  commands : List String := []
  deriving DecidableEq, Inhabited, Repr

/-- The argument that is not settled yet. -/
inductive Pending
  | none
  /-- An option whose value should be the next word. -/
  | awaiting (argument : Argument)
  | holding (argument : Argument) (word : String)
  deriving DecidableEq, Inhabited, Repr

/-- The values given so far, by argument, and where the reading stands. -/
structure Reading where
  values : List (String × String) := []
  pending : Pending := .none
  /-- Whether the positional word has been given. -/
  placed : Bool := false
  /-- Whether every further word is positional. -/
  trailing : Bool := false
  deriving DecidableEq, Inhabited, Repr

namespace Reading

def get? (r : Reading) (name : String) : Option String := r.values.lookup name

/-- Takes a value for good. -/
def store (r : Reading) (a : Argument) (word : String) : Except Fault Reading :=
  if (r.get? a.name).isSome then .error .repeated
  else match a.kind.fault? word with
    | some fault => .error fault
    | none => .ok {r with values := r.values ++ [(a.name, word)], pending := .none}

/-- Settles the pending argument. -/
def settle (r : Reading) : Except Fault Reading :=
  match r.pending with
  | .none => .ok r
  | .awaiting _ => .error .missingValue
  | .holding a word => {r with pending := .none}.store a word

def isAwaiting (r : Reading) : Bool :=
  match r.pending with
  | .awaiting _ => true
  | _ => false

/-- Begins an option, with the value attached to it if there is one. -/
def option (r : Reading) (a : Argument) (attached : Option String) : Except Fault Reading := do
  let r ← r.settle
  match attached with
  | some word => r.store a word
  | none => return {r with pending := .awaiting a}

end Reading

/-- A word that begins with two dashes: the name, and what is behind an equals
sign. -/
def splitLong (cs : List Char) : String × Option String :=
  let name := cs.takeWhile (· ≠ '=')
  match cs.drop name.length with
  | '=' :: value => (String.ofList name, some (String.ofList value))
  | _ => (String.ofList name, none)

/-- The value right behind a one-letter name, perhaps with an equals sign
between. -/
def attachedValue : List Char → Option String
  | [] => none
  | '=' :: value => some (String.ofList value)
  | value => some (String.ofList value)

namespace Level

def long (level : Level) (r : Reading) (cs : List Char) : Except Fault Reading :=
  match splitLong cs with
  | ("help", none) => do
    let _ ← r.settle
    throw (.help level.name)
  | ("help", some _) => .error .superfluousValue
  | (name, value) =>
    match level.options.find? (·.name == name) with
    | some a => r.option a value
    | none => .error .unknownArgument

def short (level : Level) (r : Reading) (c : Char) (cs : List Char) : Except Fault Reading :=
  if c = 'h' then do
    let _ ← r.settle
    throw (.help level.name)
  else
    match level.options.find? (·.short == some c) with
    | some a => r.option a (attachedValue cs)
    | none => .error .unknownArgument

/-- A positional word. One too many is taken for a misspelt command where there
are commands. -/
def place (level : Level) (r : Reading) (word : String) : Except Fault Reading :=
  match level.positional, r.placed with
  | some a, false => do
    let r ← r.settle
    return {r with pending := .holding a word, placed := true}
  | _, _ =>
    if r.trailing && level.commands.contains word then .error .unknownArgument
    else if level.commands.isEmpty then .error .unknownArgument
    else .error .unknownCommand

/-- One word that names no command. -/
def read (level : Level) (r : Reading) (word : String) : Except Fault Reading :=
  if r.trailing then level.place r word
  else match word.toList, r.pending with
    | ['-', '-'], _ => .ok {r with trailing := true}
    | '-' :: '-' :: cs, _ => level.long r cs
    | '-' :: c :: cs, _ => level.short r c cs
    | _, .awaiting a => .ok {r with pending := .holding a word}
    | _, _ => level.place r word

/-- The words of a level, up to the command it goes on with: what was given, and
the command with the words behind it. -/
def run (level : Level) : Reading → List String → Except Fault (Reading × Option (String × List String))
  | r, [] => .ok (r, none)
  | r, word :: rest =>
    if !r.trailing && !r.isAwaiting && level.commands.contains word then .ok (r, some (word, rest))
    else do
      let r ← level.read r word
      run level r rest

end Level
end SharedViews.CommandLine

import SharedViews.CommandLine

/-! Help pages.

A page says what the program or one of its commands does, how it is called, and
what may stand on the command line. In a section the descriptions stand beside the
entries, all at one column, unless an entry is so long that they would have too
little room; then each is on the line below its entry. -/
namespace SharedViews.CommandLine

/-- A kind of thing that may stand on a command line, and its entries. -/
structure HelpSection where
  title : String
  /-- Each with its description. -/
  entries : List (String × String)

/-- How the value of an argument is named. -/
def Argument.placeholder (a : Argument) : String :=
  "<" ++ String.ofList (a.name.toList.map fun c => if c = '-' then '_' else c.toUpper) ++ ">"

def Argument.entry (a : Argument) : String :=
  let short := match a.short with
    | some c => "-" ++ String.ofList [c] ++ ", "
    | none => "    "
  short ++ "--" ++ a.name ++ " " ++ a.placeholder

/-- What is said of an argument that may have a value even if none is given. -/
def Argument.remark (a : Argument) (fromEnvironment : Option String) : String :=
  match a.fallback with
  | some (.environment name) => " [env: " ++ name ++ "=" ++ fromEnvironment.getD "" ++ "]"
  | some (.text value) => " [default: " ++ value ++ "]"
  | none => ""

def spaces (n : Nat) : String := String.ofList (List.replicate n ' ')

/-- The length of the longest entry. -/
def HelpSection.width (s : HelpSection) : Nat :=
  s.entries.foldl (fun n (entry, _) => max n entry.length) 0

/-- The longest entry that leaves room for a description beside it. -/
def widestBeside : Nat := 32

def HelpSection.lines (s : HelpSection) : List String :=
  s.title :: s.entries.flatMap fun (entry, about) =>
    if s.width ≤ widestBeside then ["  " ++ entry ++ spaces (s.width - entry.length + 2) ++ about]
    else ["  " ++ entry, spaces 10 ++ about]

def Level.optionSection (level : Level) (fromEnvironment : Option String) : HelpSection :=
  {title := "Options:"
   entries := level.options.map (fun a => (a.entry, a.about ++ a.remark fromEnvironment)) ++
    [("-h, --help", "Print help")]}

def commandSection : HelpSection :=
  {title := "Commands:"
   entries := CommandName.all.map (fun name => (name.text, name.about)) ++
    [(helpWord, "Print this message or the help of the given subcommand(s)")]}

def Level.positionalSections (level : Level) : List HelpSection :=
  level.positional.toList.map fun a =>
    {title := "Arguments:", entries := [(a.placeholder, a.about)]}

/-- A page: what it is about, how that is called, and the sections. -/
def page (about usage : String) (sections : List HelpSection) : String :=
  "\n".intercalate <|
    [about, "", "Usage: viewsync " ++ usage] ++
      sections.flatMap (fun s => "" :: s.lines) ++ [""]

/-- The page about a command, or about the program if the name is none of
theirs. -/
def helpPage (command : String) (fromEnvironment : Option String) : String :=
  match CommandName.ofText? command with
  | some name =>
    let operand := (name.level.positional.map fun a => " " ++ a.placeholder).getD ""
    page name.about (name.text ++ " [OPTIONS]" ++ operand)
      (name.level.positionalSections ++ [name.level.optionSection fromEnvironment])
  | none =>
    if command = helpWord then
      page "Print this message or the help of the given subcommand(s)" "help [COMMAND]..."
        [{title := "Arguments:"
          entries := [("[COMMAND]...", "Print help for the subcommand(s)")]}]
    else
      page "scope-based view cache and context lifecycle engine" "[OPTIONS] <COMMAND>"
        [commandSection, top.optionSection fromEnvironment]

end SharedViews.CommandLine

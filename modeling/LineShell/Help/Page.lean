import LineShell.Count
import LineShell.Help.Catalogue
import LineShell.Text.Frame
import LineShell.Text.Wrap

/-! The pages of the help: the table of all commands, and a page for one command. Each is a frame
as wide as the terminal, within bounds. -/

namespace LineShell.Help

open Text

/-- The bounds for the width of a page. -/
def narrowestPage : Nat := 60
def widestPage : Nat := 100

/-- The width of a page on a terminal. -/
def pageWidth (terminal : Nat) : Nat :=
  min (max terminal narrowestPage) widestPage

/-- The columns for names in the table: the longest name and a gap. -/
def nameColumns : Nat :=
  (catalogue.map fun e => width e.name).foldl max 0 + 2

/-- The columns for summaries in a table with `inner` columns. -/
def summaryColumns (inner : Nat) : Nat :=
  inner - (nameColumns + 3)

/-- A row of the table: a name, filled up to its columns, and a line behind it. -/
def namedRow (name line : Text) : Except Crash Framed := do
  let free ← Count.less nameColumns (width name)
  return .row [.plain " ", .styled .boldBrightGreen name, .plain (blanks free ++ line)]

/-- The rows of an entry. Its name stands in the first one. -/
def Entry.rows (inner : Nat) (e : Entry) : Except Crash (List Framed) :=
  match wrap e.summary (summaryColumns inner) with
  | [] => .ok []
  | first :: others => do
    let row ← namedRow e.name first
    let rows ← others.mapM (namedRow [])
    return row :: rows

/-- The rows of a category, with a rule below them. -/
def Category.rows (inner : Nat) (c : Category) : Except Crash (List Framed) := do
  let rows ← (catalogue.filter (·.category = c)).mapM (Entry.rows inner)
  return .row [.styled .boldBrightYellow c.title] :: rows.flatten ++ [.rule]

def tableContent (inner : Nat) : Except Crash (List Framed) := do
  let rows ← Category.all.mapM (Category.rows inner)
  return [.centered inner "DELTA SHELL - COMMANDS", .rule] ++ rows.flatten ++
    [.text "Use 'help --command' for details on one command.",
     .text "Any other program on PATH can be run too."]

/-- The table of all commands. -/
def table (on : Bool) (width : Nat) : Except Crash Text :=
  (tableContent (inside width)).map fun content => stacked (frame on width content)

def exampleContent (e : Entry) : List Framed :=
  if e.examples.isEmpty then []
  else .rule :: .row [.styled .bold "Examples:"] ::
    e.examples.map fun sample => .row [.plain "  ", .styled .brightYellow sample]

def entryContent (inner : Nat) (e : Entry) : List Framed :=
  [.centered inner ("HELP: " ++ e.name.map Char.toUpper), .rule,
   .row [.plain "Usage: ", .styled .boldBrightGreen e.usage]] ++
    (wrap e.summary (inner - 2)).map .text ++ exampleContent e

/-- The page of a command of the shell. -/
def entryPage (on : Bool) (width : Nat) (e : Entry) : Text :=
  stacked (frame on width (entryContent (inside width) e))

def programContent (inner : Nat) (name description : Text) : List Framed :=
  [.centered inner ("HELP: " ++ name ++ " (system command)"), .rule] ++
    (wrap description (inner - 2)).map .text ++
    [.rule, .text ("Run '" ++ name ++ " --help' or 'man " ++ name ++ "' for the full manual.")]

/-- The page of a program that describes itself. -/
def programPage (on : Bool) (width : Nat) (name description : Text) : Text :=
  stacked (frame on width (programContent (inside width) name description))

def unknownContent (name : Text) : List Framed :=
  [.row [.styled .boldBrightRed ("Command '" ++ name ++ "' not found")],
   .text "Type 'help' for a list of available commands."]

/-- The page for a name that nothing is known about. -/
def unknownPage (on : Bool) (width : Nat) (name : Text) : Text :=
  stacked (frame on width (unknownContent name))

end LineShell.Help

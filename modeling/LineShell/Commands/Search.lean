import LineShell.Commands.Copy
import LineShell.Commands.Files
import LineShell.Glob.Pattern
import LineShell.Text.Blank

/-! Searching: for a text in a file, and for names below a directory. -/

namespace LineShell.Commands

/-- The lines of a file's bytes as they are searched: cut at line feeds, and shown without the
blanks at their ends. -/
def searchedLines (bytes : Text.Bytes) : List Text :=
  (Text.pieces 10 bytes).map fun line => Text.trimEnd (Text.lossy line)

/-- The lines that hold a text, each behind its number. -/
def linesWith (needle : Text) (lines : List Text) : List Text :=
  (lines.zipIdx.filter fun (line, _) => Text.occurs needle line).map fun (line, i) =>
    Text.decimal (i + 1) ++ ": " ++ line

def grep (s : Setting) (arguments : List Text) (w : Workspace) : Answer :=
  match arguments with
  | needle :: file :: _ => do
    let target ← existingFile s w .grep file
    match w.tree.read target with
    | .error e => .error (.io (.cannot .grep (.openFile target)) e)
    | .ok bytes =>
      let found := linesWith needle (searchedLines bytes)
      .ok (if found.isEmpty then "Text '" ++ needle ++ "' not found in file"
        else Text.stacked found)
  | _ => .error (Complaint.usage .grep "<text> <file>" "\"hello\" file.txt" : Failure)

/-- A search for names ends after this many. -/
def findLimit : Nat := 100

/-- The entries of a directory in the order of the bytes of their names. -/
def inOrder (entries : List (Name × Node)) : List (Name × Node) :=
  entries.mergeSort fun a b => a.1.le b.1

/-- What is found at most `limit` times below a directory, behind what is found already: first the
entries of the directory itself, then those of each directory in it. Links are not followed, and
directories that cannot be read are passed over. -/
def search (t : FileTree) (accepts : Text → Bool) (limit : Nat) (found : List Place)
    (p : Place) : List Place :=
  match h : t.list p with
  | .error _ => found
  | .ok entries =>
    let entries := inOrder entries
    let here := (entries.filter fun (name, _) => accepts name.shown).map fun (name, _) =>
      p.entry name
    (entries.filter (·.2.isDir)).foldl (fun found e =>
      if found.length ≥ limit then found
      else
        have := Place.room_entry_lt h e.1
        search t accepts limit found (p.entry e.1)) ((found ++ here).take limit)
termination_by p.room

/-- The text without the quotes at its two ends. -/
def dropQuotes (t : Text) : Text :=
  let isQuote (c : Char) : Bool := c = '"' || c = '\''
  ((t.dropWhile isQuote).reverse.dropWhile isQuote).reverse

def find (arguments : List Text) (w : Workspace) : Answer :=
  match arguments.getLast? with
  | none => .error (Complaint.missing .find "pattern" "\"*.txt\"" : Failure)
  | some typed =>
    let typed := dropQuotes typed
    match Glob.Pattern.parse typed with
    | .error e => .error { complaint := .invalidPattern typed, cause := some (.pattern e) }
    | .ok pattern =>
      let found := search w.tree pattern.accepts findLimit [] w.cwd
      .ok (if found.isEmpty then "Nothing found for pattern: " ++ typed
        else Text.stacked (found.map Place.shown))

end LineShell.Commands

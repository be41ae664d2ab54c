import LineShell.Completion.CurrentWord
import LineShell.Files.Tree
import LineShell.Text.Lowercase
import LineShell.Text.Style
import LineShell.Variables

/-! Completion of a line: the first word to the name of a command or program, later words to paths.
Case does not count. -/

namespace LineShell.Completion

/-- What a word may be completed to: how it is shown, and what is put in its place. -/
structure Candidate where
  display : Text
  replacement : Text
  deriving DecidableEq, Repr

/-- Whether a text begins with another one, whatever the case of either. -/
def beginsWith (start t : Text) : Bool :=
  (Text.lower start).isPrefixOf (Text.lower t)

/-- Texts in order, each once. -/
def sortedOnce (texts : List Text) : List Text :=
  let keep (t : Text) (kept : List Text) : List Text :=
    if kept.head? = some t then kept else t :: kept
  (texts.mergeSort Text.le).foldr keep []

/-- Whether an entry is a file that somebody may run. A link is none. -/
def isRunnable (t : FileTree) : Node → Bool
  | .file id => t.files[id]?.any fun f => f.mode / 0o100 % 2 + f.mode / 0o10 % 2 + f.mode % 2 > 0
  | _ => false

/-- The names of the programs in a directory. -/
def programsIn (t : FileTree) (directory : Path) : List Text :=
  match t.list directory with
  | .error _ => []
  | .ok entries =>
    let searchable := (t.node true directory).toOption.any (·.grants .search)
    if searchable then (entries.filter fun (_, n) => isRunnable t n).filterMap fun (name, _) =>
      name.text?
    else []

/-- The names of the programs in the directories that `PATH` lists. -/
def programNames (t : FileTree) (v : Variables) : List Text :=
  match v.get? "PATH" with
  | none => []
  | some list => (list.splitOn ':').flatMap (programsIn t)

/-- Names that begin with a word. -/
def completeName (names : List Text) (word : Text) : List Candidate :=
  (names.filter (beginsWith word)).map fun name => { display := name, replacement := name }

/-- A path in two parts: up to its last slash or backslash, and what follows. -/
def splitPath (partialPath : Text) : Text × Text :=
  let isSlash (c : Char) : Bool := c = '/' || c = '\\'
  let rest := (partialPath.reverse.takeWhile (!isSlash ·)).reverse
  (partialPath.take (partialPath.length - rest.length), rest)

/-- The directory that the first part of a path stands for. -/
def searchedDir (home : Option Path) (cwd : Path) (dirPart : Text) : Path :=
  if dirPart.isEmpty then cwd
  else match "~/".toList.isPrefixOf? dirPart, home with
    | some rest, some home => Path.join home rest
    | _, _ => Path.join cwd dirPart

/-- The candidate that an entry is. -/
def ofEntry (dirPart : Text) (name : Name) (n : Node) : Candidate :=
  let display := if n.isDir then name.shown ++ ['/'] else name.shown
  { display, replacement := dirPart ++ display }

/-- Whether an entry is offered for a word. Names with a leading dot are, where the word has one. -/
def offered (word : Text) (name : Text) : Bool :=
  beginsWith word name && (name.head? ≠ some '.' || word.head? = some '.')

/-- Paths that begin with a partial one, in order whatever their case. -/
def completePath (t : FileTree) (home : Option Path) (cwd : Path) (partialPath : Text) :
    List Candidate :=
  let (dirPart, word) := splitPath partialPath
  match t.list (searchedDir home cwd dirPart) with
  | .error _ => []
  | .ok entries =>
    let found := (entries.filter fun (name, _) => offered word name.shown).map fun (name, n) =>
      ofEntry dirPart name n
    found.mergeSort fun a b => Text.le (Text.lower a.display) (Text.lower b.display)

/-- A replacement with a blank in it is put between quotes. -/
def Candidate.quoted (c : Candidate) : Candidate :=
  if c.replacement.contains ' ' then { c with replacement := '"' :: c.replacement ++ ['"'] } else c

/-- The quote that a word begins with. -/
def openQuote? : Text → Option Char
  | '"' :: _ => some '"'
  | '\'' :: _ => some '\''
  | _ => none

/-- The part of the line that stays, and the candidates for the rest of it. -/
def complete (t : FileTree) (home : Option Path) (cwd : Path) (names : List Text)
    (line : Text) : Text × List Candidate :=
  let current := currentWord line
  if current.isFirst then (current.before, completeName names current.word)
  else match openQuote? current.word with
    | some q => (current.before ++ [q], completePath t home cwd (current.word.drop 1))
    | none => (current.before, (completePath t home cwd current.word).map Candidate.quoted)

/-- A hint as it is shown behind the line. -/
def shownHint (hint : Text) : Text :=
  Text.Style.opening Text.Style.grey ++ hint ++ Text.Style.reset

end LineShell.Completion

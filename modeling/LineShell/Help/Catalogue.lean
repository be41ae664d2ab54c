import LineShell.Text.Lowercase

/-! What the help says about each command. -/

namespace LineShell.Help

inductive Category where
  | directories
  | files
  | search
  | session
  deriving DecidableEq, Repr

namespace Category

def all : List Category :=
  [directories, files, search, session]

def title : Category → Text
  | directories => "DIRECTORIES"
  | files => "FILES"
  | search => "SEARCH"
  | session => "SESSION"

end Category

/-- The entry of a command. -/
structure Entry where
  name : Text
  category : Category
  usage : Text
  summary : Text
  examples : List Text
  deriving DecidableEq, Repr

/-- All entries, in the order in which the help lists them. -/
def catalogue : List Entry :=
  [{ name := "ls", category := .directories, usage := "ls [-a] [-l] [path]",
     summary := "List directory contents. -a includes hidden files, -l shows details.",
     examples := ["ls -a", "ls -l src"] },
   { name := "dir", category := .directories, usage := "dir [-a] [-l] [path]",
     summary := "Alias for ls.", examples := [] },
   { name := "cd", category := .directories, usage := "cd [path]",
     summary :=
       "Change the current directory. No argument goes home, .. goes up one level.",
     examples := ["cd /tmp", "cd .."] },
   { name := "pwd", category := .directories, usage := "pwd",
     summary := "Print the full path of the current directory.", examples := [] },
   { name := "mkdir", category := .directories, usage := "mkdir <path>...",
     summary := "Create directories, including missing parents.",
     examples := ["mkdir build/out"] },
   { name := "rmdir", category := .directories, usage := "rmdir <path>...",
     summary := "Remove empty directories.", examples := ["rmdir old"] },
   { name := "cat", category := .files, usage := "cat <file>...",
     summary := "Show the whole contents of files.", examples := ["cat file.txt"] },
   { name := "touch", category := .files, usage := "touch <file>...",
     summary := "Create an empty file or update the modification time of an existing one.",
     examples := ["touch notes.md"] },
   { name := "rm", category := .files, usage := "rm [-r] <path>...",
     summary := "Remove files. Use -r to remove directories with their contents.",
     examples := ["rm file.txt", "rm -r build"] },
   { name := "cp", category := .files, usage := "cp [-r] <src>... <dst>",
     summary := "Copy files. Use -r to copy directories.",
     examples := ["cp file.txt backup.txt", "cp -r dir1 dir2"] },
   { name := "mv", category := .files, usage := "mv <src>... <dst>",
     summary := "Move or rename files and directories.",
     examples := ["mv old.txt new.txt", "mv file.txt /tmp/"] },
   { name := "grep", category := .search, usage := "grep <text> <file>",
     summary := "Show numbered lines of a file that contain the text.",
     examples := ["grep \"hello\" file.txt"] },
   { name := "find", category := .search, usage := "find <pattern>",
     summary :=
       "Find files and directories below the current one by name (* and ? wildcards, " ++
       "case-insensitive).",
     examples := ["find \"*.txt\""] },
   { name := "head", category := .search, usage := "head [-n <count>] <file>",
     summary := "Show the first lines of a file (10 by default).",
     examples := ["head file.txt", "head -n 5 file.txt"] },
   { name := "tail", category := .search, usage := "tail [-n <count>] <file>",
     summary := "Show the last lines of a file (10 by default).",
     examples := ["tail file.txt", "tail -n 5 file.txt"] },
   { name := "wc", category := .search, usage := "wc <file>",
     summary := "Count lines, words and characters in a file.",
     examples := ["wc file.txt"] },
   { name := "echo", category := .session, usage := "echo [text]...",
     summary := "Print the arguments separated by single spaces.",
     examples := ["echo hello > out.txt"] },
   { name := "history", category := .session, usage := "history [limit]",
     summary := "Show commands entered in this session, optionally only the last few.",
     examples := ["history", "history 5"] },
   { name := "clear", category := .session, usage := "clear",
     summary := "Clear the terminal screen.", examples := [] },
   { name := "cls", category := .session, usage := "cls",
     summary := "Alias for clear.", examples := [] },
   { name := "help", category := .session, usage := "help [--command]",
     summary := "Show this table, or details for one command.",
     examples := ["help --grep"] },
   { name := "exit", category := .session, usage := "exit | quit",
     summary := "Leave the shell.", examples := [] },
   { name := "quit", category := .session, usage := "quit",
     summary := "Same as exit.", examples := [] }]

/-- The entry for a typed name. -/
def entry? (typed : Text) : Option Entry :=
  let name := Text.lower typed
  catalogue.find? (·.name = name)

end LineShell.Help

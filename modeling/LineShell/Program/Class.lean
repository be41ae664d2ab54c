import LineShell.Text.Lowercase

/-! How a program is run is told by its name: one that needs the terminal gets it and runs as long
as it likes, any other is run for its output and within a time limit. -/

namespace LineShell.Program

inductive Class where
  | interactive
  | streaming
  | standard
  deriving DecidableEq, Repr

/-- Whether programs of the class have the terminal and no time limit. -/
def Class.attached : Class → Bool
  | .standard => false
  | _ => true

/-- Programs that read from the terminal or draw on it: editors, monitors and pagers, remote
sessions, multiplexers and file managers, dialogs, debuggers and interpreters, database clients,
and shells. -/
def interactiveNames : List String :=
  ["nano", "vim", "vi", "nvim", "emacs", "gedit", "kate", "code",
   "htop", "top", "btop", "less", "more", "man", "watch",
   "ssh", "telnet", "ftp", "sftp",
   "screen", "tmux", "ranger", "mc", "ncdu", "nnn",
   "dialog", "whiptail", "fzf",
   "gdb", "python", "python3", "ipython", "node", "nodejs", "irb", "pry",
   "mysql", "psql", "sqlite3", "mongo",
   "bash", "zsh", "sh", "fish"]

/-- Programs whose output may never end. -/
def streamingNames : List String :=
  ["ping", "journalctl", "dmesg", "tcpdump"]

/-- The arguments with which `tail` follows a file. -/
def followFlags : List String :=
  ["-f", "-F", "--follow"]

/-- The class of a program that is run with these arguments. -/
def classify (name : Text) (arguments : List Text) : Class :=
  let lower := Text.lower name
  if (interactiveNames.map String.toList).contains lower then .interactive
  else if (streamingNames.map String.toList).contains lower then .streaming
  else if lower = "tail" ∧ arguments.any (followFlags.map String.toList).contains then .streaming
  else .standard

end LineShell.Program

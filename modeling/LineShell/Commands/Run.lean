import LineShell.Commands.Copy
import LineShell.Commands.Directories
import LineShell.Commands.Excerpt
import LineShell.Commands.Search

/-! Each command by its handler. -/

namespace LineShell.Commands

/-- A command that only looks. -/
def looking (w : Workspace) (a : Answer) : Workspace × Ending :=
  (w, .answered a.outcome)

/-- A command that may change what it works on. -/
def changing (r : Workspace × Answer) : Workspace × Ending :=
  (r.1, .answered (Answer.outcome r.2))

/-- Carries out a command. -/
def run (s : Setting) (c : Command) (arguments : List Text) (w : Workspace) : Workspace × Ending :=
  match c with
  | .ls => (w, Ending.ofAnswer (ls s arguments w))
  | .cd => changing (cd s arguments w)
  | .pwd => looking w (pwd w)
  | .mkdir => changing (mkdir s arguments w)
  | .rmdir => changing (rmdir s arguments w)
  | .cat => looking w (cat s arguments w)
  | .touch => changing (touch s arguments w)
  | .rm => changing (rm s arguments w)
  | .cp => changing (cp s arguments w)
  | .mv => changing (mv s arguments w)
  | .grep => looking w (grep s arguments w)
  | .find => looking w (find arguments w)
  | .head => looking w (head s arguments w)
  | .tail => (w, tail s arguments w)
  | .wc => looking w (wc s arguments w)

end LineShell.Commands

import LineShell.Files.Path
import LineShell.Text.Style

/-! The prompt: who works where. The directory is shown from the home directory on, and a long
one by its two ends. -/

namespace LineShell.Prompt

open Text

/-- The most characters that a directory is shown with. -/
def limit : Nat := 64

/-- A text by its two ends around an ellipsis where it is longer than `most` characters. -/
def shorten (most : Nat) (t : Text) : Text :=
  if t.length ≤ most then t
  else t.take (most / 2) ++ '…' :: t.drop (t.length - (most / 2 - 1))

/-- The directory with a tilde for the home directory. -/
def place (home : Option Path) (cwd : Path) : Text :=
  match home with
  | some home =>
    match Path.relativeTo? home cwd with
    | some [] => ['~']
    | some rest => Path.join ['~'] rest
    | none => cwd
  | none => cwd

/-- The prompt of a user on a host in a directory. -/
def text (on : Bool) (user host : Text) (home : Option Path) (cwd : Path) : Text :=
  '[' :: Style.boldBrightGreen.paint on user ++ '@' :: Style.brightGreen.paint on host ++
    "][" ++ Style.brightCyan.paint on (shorten limit (place home cwd)) ++ "]> "

end LineShell.Prompt

import LineShell.Failure
import LineShell.Files.Tree

/-! What the commands on files have in common: the setting that they run in, the directory and the
tree that they work on, and their operands. A command with many operands is carried out one operand
after the other, and the first failure ends it. -/

namespace LineShell.Commands

/-- What a command finds and cannot change: the surroundings of the session, as far as it needs
them. -/
structure Setting where
  home : Option Path
  now : Time
  zone : Time → Int
  /-- The columns of the terminal. -/
  terminal : Nat
  colours : Bool
  memory : Nat → Bool

/-- What a command works on: a directory to start from, and all files. -/
structure Workspace where
  cwd : Path
  tree : FileTree

/-- The path that an operand names. -/
def Workspace.resolve (w : Workspace) (s : Setting) (typed : Text) : Path :=
  Path.resolve s.home w.cwd typed

/-- The arguments that are no options. -/
def operands (arguments : List Text) : List Text :=
  arguments.filter fun a => a.head? ≠ some '-'

/-- Whether the arguments ask for directories with all that is in them. -/
def recursive (arguments : List Text) : Bool :=
  arguments.any fun a =>
    a = "-r".toList ∨ a = "-R".toList ∨ a = "--recursive".toList

/-- A step for each operand in turn, on what the step before has left, up to the first failure. -/
def each {σ α β ε : Type} (step : σ → α → σ × Except ε β) (s : σ) :
    List α → σ × Except ε (List β)
  | [] => (s, .ok [])
  | a :: rest =>
    match step s a with
    | (s, .error e) => (s, .error e)
    | (s, .ok b) =>
      match each step s rest with
      | (s, .error e) => (s, .error e)
      | (s, .ok bs) => (s, .ok (b :: bs))

/-- A message for each operand, one below another. -/
def eachLine {σ α : Type} (step : σ → α → σ × Answer) (s : σ) (items : List α) : σ × Answer :=
  match each step s items with
  | (s, .ok lines) => (s, .ok (Text.stacked lines))
  | (s, .error e) => (s, .error e)

/-- The workspace with what a step on its files has left. -/
def Workspace.withTree (w : Workspace) (r : FileTree × Answer) : Workspace × Answer :=
  ({ w with tree := r.1 }, r.2)

end LineShell.Commands

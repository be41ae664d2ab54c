import LineShell.Files.Name

/-! What a session is given to read. The shell takes it in by portions and reads lines from the
portion that it holds; what it has not taken in yet is there for the programs that it runs. -/

namespace LineShell

structure Input where
  /-- What the shell has taken in and not read yet. -/
  held : Text.Bytes := []
  /-- What is still to be taken in, by the shell or by a program. -/
  left : Text.Bytes := []
  deriving DecidableEq, Repr

namespace Input

/-- The most bytes that the shell takes in at once. -/
def portion : Nat := 8192

def size (i : Input) : Nat :=
  i.held.length + i.left.length

/-- Takes in a portion where nothing is held. -/
def fill (i : Input) : Input :=
  if i.held.isEmpty then { held := i.left.take portion, left := i.left.drop portion } else i

theorem size_fill (i : Input) : i.fill.size = i.size := by
  unfold fill size
  split
  · rename_i h
    simp only [List.isEmpty_iff] at h
    simp only [h, List.length_take, List.length_drop, List.length_nil]
    omega
  · rfl

theorem left_fill_lt {i : Input} {b : UInt8} {rest : Text.Bytes} (h : i.fill.held = b :: rest) :
    i.fill.left.length < i.size := by
  rw [← size_fill i, size, h, List.length_cons]
  omega

/-- The bytes of the next line with its line feed, and what is left. There are none at the end. -/
def nextLine (i : Input) : Text.Bytes × Input :=
  match h : i.fill.held with
  | [] => ([], i.fill)
  | b :: rest =>
    have := left_fill_lt h
    let line := (b :: rest).takeWhile (· ≠ 10)
    if (b :: rest).contains 10 then
      (line ++ [10], { i.fill with held := (b :: rest).drop (line.length + 1) })
    else
      let (more, after) := nextLine { left := i.fill.left }
      (b :: rest ++ more, after)
termination_by i.size
decreasing_by simp only [size, List.length_nil] at *; omega

/-- The input after a program has read so many bytes of what the shell has not taken in. -/
def after (i : Input) (taken : Nat) : Input :=
  { i with left := i.left.drop taken }

/-- A line without its end. A carriage return in front of the line feed is part of the end. -/
def dropEnd (line : Text) : Text :=
  match line.getLast? with
  | some '\n' => Text.dropReturn line.dropLast
  | _ => line

/-- What is found where a line is looked for. -/
inductive Found where
  | nothing
  | line (text : Text)
  /-- Bytes that are no text. -/
  | garbled
  deriving DecidableEq, Repr

/-- The next line as a text, and what is left. -/
def readLine (i : Input) : Found × Input :=
  match i.nextLine with
  | ([], i) => (.nothing, i)
  | (bytes, i) =>
    match Name.text? (Text.decode bytes) with
    | some t => (.line (dropEnd t), i)
    | none => (.garbled, i)

end Input

end LineShell

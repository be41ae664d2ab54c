import LineShell.Commands.Files
import LineShell.Text.Blank
import LineShell.Text.Numeral

/-! Excerpts of a file: its first lines, its last lines, and its size in lines, words and
characters. -/

namespace LineShell.Commands

/-- The number of lines that are shown where no number is given. -/
def usualLines : Nat := 10

/-- The value of a count option that is one argument with its value. -/
def attachedCount? : Text → Option Text
  | '-' :: 'n' :: c :: rest => some (c :: rest)
  | _ => none

/-- The count and the file of arguments; of several of either the last one counts. -/
def countAndFile (c : Command) (count : Nat) (file : Option Text) :
    List Text → Except Failure (Nat × Option Text)
  | [] => .ok (count, file)
  | a :: rest =>
    let invalid (v : Text) : Except Failure (Nat × Option Text) :=
      .error (Complaint.invalidLineCount c v : Failure)
    if a = "-n".toList then
      match rest with
      | [] => .error (Complaint.optionWithoutNumber c : Failure)
      | v :: rest =>
        match Text.count? v with
        | some n => countAndFile c n file rest
        | none => invalid v
    else match attachedCount? a with
      | some v =>
        match Text.count? v with
        | some n => countAndFile c n file rest
        | none => invalid v
      | none => countAndFile c count (some a) rest

/-- The count and the file that arguments ask for. -/
def excerptOf (c : Command) (arguments : List Text) : Except Failure (Nat × Text) :=
  match countAndFile c usualLines none arguments with
  | .error f => .error f
  | .ok (_, none) => .error (Complaint.missing c "file operand" "file.txt" : Failure)
  | .ok (n, some file) => .ok (n, file)

/-- The lines of a file's bytes. -/
def shownLines (bytes : Text.Bytes) : List Text :=
  Text.lines (Text.lossy bytes)

def head (s : Setting) (arguments : List Text) (w : Workspace) : Answer := do
  let (n, file) ← excerptOf .head arguments
  let bytes ← fileBytes s w .head file
  return Text.stacked ((shownLines bytes).take n)

/-- The bytes of memory that a line takes besides its letters. -/
def lineBytes : Nat := 24

/-- The largest number of lines that room can be asked for: a request ends below 2^63 bytes. -/
def mostLines : Nat := 9223372036854775807 / lineBytes

/-- The bytes that are asked for where room is made for so many lines, for one at least. -/
def roomFor (n : Nat) : Nat :=
  lineBytes * max n 1

/-- The lines that are kept of those read so far, after one more. Where as many are kept as are
asked for, the oldest makes room. -/
def keepLine (n : Nat) (kept : List Text) (line : Text) : List Text :=
  (if kept.length = n then kept.tail else kept) ++ [line]

/-- What is kept of lines that are read one after another. None is read where none is asked for. -/
def keepLines (n : Nat) (lines : List Text) : List Text :=
  if n = 0 then [] else lines.foldl (keepLine n) []

/-- The last lines of a file. -/
def lastLines (s : Setting) (n : Nat) (file : Text) (w : Workspace) : Answer := do
  let bytes ← fileBytes s w .tail file
  return Text.stacked (keepLines n (shownLines bytes))

/-- Room for all the lines that are asked for is made before the file is read. -/
def tail (s : Setting) (arguments : List Text) (w : Workspace) : Ending :=
  match excerptOf .tail arguments with
  | .error f => .answered f.outcome
  | .ok (n, file) =>
    match existingFile s w .tail file with
    | .error f => .answered f.outcome
    | .ok _ =>
      if n > mostLines then .crashed .capacity
      else if s.memory (roomFor n) then .answered (lastLines s n file w).outcome
      else .aborted (roomFor n)

def wc (s : Setting) (arguments : List Text) (w : Workspace) : Answer :=
  match (operands arguments).getLast? with
  | none => .error (Complaint.missing .wc "file operand" "file.txt" : Failure)
  | some file => do
    let bytes ← fileBytes s w .wc file
    let t := Text.lossy bytes
    return "Lines: " ++ Text.decimal (t.count '\n') ++ ", Words: " ++
      Text.decimal (Text.words t).length ++ ", Chars: " ++ Text.decimal t.length ++ " - " ++
      w.resolve s file

end LineShell.Commands

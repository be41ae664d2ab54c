import LineShell.Commands.Operands
import LineShell.Files.Change

/-! The commands that show, touch and remove files. -/

namespace LineShell.Commands

/-- The regular file that an operand names. -/
def existingFile (s : Setting) (w : Workspace) (c : Command) (typed : Text) : Except Failure Path :=
  let target := w.resolve s typed
  if !w.tree.isThere target then .error (Complaint.trouble c target .noSuchFile : Failure)
  else if !w.tree.isFile target then .error (Complaint.trouble c target .notAFile : Failure)
  else .ok target

/-- The bytes of the file that an operand names. -/
def fileBytes (s : Setting) (w : Workspace) (c : Command) (typed : Text) :
    Except Failure Text.Bytes := do
  let target ← existingFile s w c typed
  match w.tree.read target with
  | .ok bytes => .ok bytes
  | .error e => .error (.io (.reading c target) e)

/-- The files one after another, with nothing between them. -/
def cat (s : Setting) (arguments : List Text) (w : Workspace) : Answer :=
  match operands arguments with
  | [] => .error (Complaint.missing .cat "file operand" "readme.txt" : Failure)
  | files =>
    match each (fun (_ : Unit) file => ((), fileBytes s w .cat file)) () files with
    | (_, .ok contents) => .ok (contents.flatMap Text.lossy)
    | (_, .error f) => .error f

/-- Gives a file the present time, or makes it where it is missing. -/
def touchFile (s : Setting) (w : Workspace) (t : FileTree) (typed : Text) : FileTree × Answer :=
  let target := w.resolve s typed
  if t.isThere target then
    match t.touch s.now target with
    | .ok t => (t, .ok ("File updated: " ++ target))
    | .error e => (t, .error (.io (.cannot .touch (.touchDenied target)) e))
  else
    match t.overwrite s.now target [] with
    | .ok t => (t, .ok ("File created: " ++ target))
    | .error e => (t, .error (.io (.cannot .touch (.touch target)) e))

def touch (s : Setting) (arguments : List Text) (w : Workspace) : Workspace × Answer :=
  match operands arguments with
  | [] => (w, .error (Complaint.missing .touch "file operand" "newfile.txt" : Failure))
  | files => w.withTree (eachLine (touchFile s w) w.tree files)

/-- Removes what an operand names: a file or a link, or a directory if that is asked for. -/
def remove (s : Setting) (w : Workspace) (recursive : Bool) (t : FileTree) (typed : Text) :
    FileTree × Answer :=
  let target := w.resolve s typed
  let cannot (e : IoError) : Answer := .error (.io (.cannot .rm (.remove target)) e)
  if t.isDir target then
    if !recursive then
      (t, .error (Complaint.trouble .rm target (.directory ("rm -r " ++ typed)) : Failure))
    else match t.removeTree target with
      | (t, none) => (t, .ok ("Directory removed: " ++ target))
      | (t, some e) => (t, cannot e)
  else if t.isThere target || t.isLink target then
    match t.unlink target with
    | .ok t => (t, .ok ("File removed: " ++ target))
    | .error e => (t, cannot e)
  else (t, .error (Complaint.trouble .rm target .nothingThere : Failure))

def rm (s : Setting) (arguments : List Text) (w : Workspace) : Workspace × Answer :=
  match operands arguments with
  | [] => (w, .error (Complaint.missing .rm "operand" "file.txt" : Failure))
  | targets => w.withTree (eachLine (remove s w (recursive arguments)) w.tree targets)

end LineShell.Commands

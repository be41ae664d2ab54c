import LineShell.Commands.Operands
import LineShell.Files.Change
import LineShell.Listing.Directory

/-! The commands that list, enter, make and remove directories. -/

namespace LineShell.Commands

/-- The directory to enter for a typed path; without one it is the home directory. -/
def enter (s : Setting) (w : Workspace) (typed : Text) : Except Failure Path :=
  let target? := if typed.isEmpty then s.home else some (w.resolve s typed)
  match target? with
  | none => .error (Complaint.noHome : Failure)
  | some target =>
    if !w.tree.isThere target then .error (Complaint.trouble .cd target .noSuchDirectory : Failure)
    else if !w.tree.isDir target then .error (Complaint.trouble .cd target .notADirectory : Failure)
    else .ok target

/-- Makes a directory, and those above it that are missing. -/
def makeDir (s : Setting) (w : Workspace) (t : FileTree) (typed : Text) :
    FileTree × Except Failure Path :=
  let target := w.resolve s typed
  if t.isThere target then
    (t, .error (Complaint.trouble .mkdir target .alreadyExists : Failure))
  else match t.createDirAll s.now target with
    | (t, none) => (t, .ok target)
    | (t, some e) => (t, .error (.io (.cannot .mkdir (.create target)) e))

/-- Removes an empty directory. -/
def removeDir (s : Setting) (w : Workspace) (t : FileTree) (typed : Text) :
    FileTree × Except Failure Path :=
  let target := w.resolve s typed
  let trouble (x : Trouble) : FileTree × Except Failure Path :=
    (t, .error (Complaint.trouble .rmdir target x : Failure))
  if !t.isThere target then trouble .noSuchDirectory
  else if !t.isDir target then trouble .notADirectory
  else match t.list target with
    | .error e => (t, .error (.io (.cannot .rmdir (.access target)) e))
    | .ok (_ :: _) => trouble .notEmpty
    | .ok [] =>
      match t.removeDir target with
      | .ok t => (t, .ok target)
      | .error e => (t, .error (.io (.cannot .rmdir (.remove target)) e))

/-- The listing of a directory. -/
def listing (s : Setting) (w : Workspace) (options : Listing.Options) (typed : Text) :
    Except Crash Answer :=
  let target := w.resolve s typed
  match Listing.render s.colours s.zone s.terminal options w.tree target with
  | .ok shown => shown.map .ok
  | .error e => .ok (.error (.io (.cannot .ls (.access target)) e))

def ls (s : Setting) (arguments : List Text) (w : Workspace) : Except Crash Answer :=
  let (options, target) := Listing.Options.parse arguments
  listing s w options (target.getD [])

def cd (s : Setting) (arguments : List Text) (w : Workspace) : Workspace × Answer :=
  match enter s w (arguments.head?.getD []) with
  | .ok target => ({ w with cwd := target }, .ok ("Changed to " ++ target))
  | .error f => (w, .error f)

def pwd (w : Workspace) : Answer :=
  .ok w.cwd

/-- A step on one directory, with what is said when it is done. -/
def told (done : Text) (step : FileTree → Text → FileTree × Except Failure Path)
    (t : FileTree) (operand : Text) : FileTree × Answer :=
  match step t operand with
  | (t, .ok p) => (t, .ok (done ++ p))
  | (t, .error f) => (t, .error f)

def mkdir (s : Setting) (arguments : List Text) (w : Workspace) : Workspace × Answer :=
  match operands arguments with
  | [] => (w, .error (Complaint.missing .mkdir "directory operand" "new_folder" : Failure))
  | paths => w.withTree (eachLine (told "Directory created: " (makeDir s w)) w.tree paths)

def rmdir (s : Setting) (arguments : List Text) (w : Workspace) : Workspace × Answer :=
  match operands arguments with
  | [] => (w, .error (Complaint.missing .rmdir "directory operand" "old_folder" : Failure))
  | paths => w.withTree (eachLine (told "Directory removed: " (removeDir s w)) w.tree paths)

end LineShell.Commands

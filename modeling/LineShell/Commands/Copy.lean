import LineShell.Commands.Operands
import LineShell.Files.Change

/-! Copying and moving. Where the destination is a directory, things go into it under their own
names; this is decided for each source anew. -/

namespace LineShell

namespace FileTree

theorem size_lt_of_list {t : FileTree} {p : Place} {es : List (Name × Node)}
    (h : t.list p = .ok es) : p.size < pathLimit := by
  unfold list node find at h
  by_cases hp : p.size ≥ pathLimit
  · by_cases h0 : p.path.contains (Char.ofNat 0) = true <;> by_cases h1 : p.size = 0 <;>
      simp_all
  · omega

end FileTree

namespace Place

theorem inside_length_le_size (p : Place) : p.inside.length ≤ p.size + 1 := by
  have sum (l : List Name) : l.length ≤ Text.total (l.map fun n => n.size + 1) := by
    induction l with
    | nil => simp
    | cons n l ih => simp only [List.length_cons, List.map_cons, Text.total]; omega
  unfold size
  have h := p.inside.length_reverse
  cases hr : p.inside.reverse with
  | nil => rw [hr] at h; simp at h; omega
  | cons first rest =>
    have := sum rest
    rw [hr] at h
    simp only [List.length_cons] at h ⊢
    omega

/-- How many names deeper than a place the system still reads directories. -/
def room (p : Place) : Nat :=
  FileTree.pathLimit + 1 - p.inside.length

theorem room_entry_lt {t : FileTree} {p : Place} {es : List (Name × Node)}
    (h : t.list p = .ok es) (n : Name) : (p.entry n).room < p.room := by
  have h1 := FileTree.size_lt_of_list h
  have h2 := p.inside_length_le_size
  simp only [room, entry, List.length_cons]
  omega

end Place

namespace Commands

/-- The place that something goes to: inside `dest` under its own name if `dest` is a directory,
otherwise `dest` itself. -/
def destination (t : FileTree) (source dest : Path) : Except Failure Path :=
  if t.isDir dest then
    match Path.fileName? source with
    | some name => .ok (Path.join dest name)
    | none => .error (Complaint.noFileName source : Failure)
  else .ok dest

/-- Copies a directory with all that is in it over what is there. What the directory holds is
looked up once its copy is made. -/
def copyDir (now : Time) (t : FileTree) (source dest : Place) : FileTree × Except Failure Unit :=
  if Place.below source dest then
    (t, .error (Complaint.cannot .cp (.copyInto source.shown) : Failure))
  else match t.createDirAll now dest with
  | (t, some e) => (t, .error (.io (.cannot .cp (.create dest.shown)) e))
  | (t, none) =>
    match h : t.list source with
    | .error e => (t, .error (.io (.cannot .cp (.read source.shown)) e))
    | .ok entries =>
      let copyEntry (t : FileTree) (e : Name × Node) : FileTree × Except Failure Unit :=
        if e.2.isDir then
          have := Place.room_entry_lt h e.1
          copyDir now t (source.entry e.1) (dest.entry e.1)
        else match t.copyFile now (source.entry e.1) (dest.entry e.1) with
          | .ok t => (t, .ok ())
          | .error e' => (t, .error (.io (.cannot .cp (.copy (source.entry e.1).shown)) e'))
      match each copyEntry t entries with
      | (t, .ok _) => (t, .ok ())
      | (t, .error f) => (t, .error f)
termination_by source.room

/-- Copies one source. -/
def copy (s : Setting) (w : Workspace) (recursive : Bool) (destTyped : Text) (t : FileTree)
    (typed : Text) : FileTree × Answer :=
  let source := w.resolve s typed
  let trouble (x : Trouble) : FileTree × Answer :=
    (t, .error (Complaint.trouble .cp source x : Failure))
  if !t.isThere source then trouble .nothingThere
  else match destination t source (w.resolve s destTyped) with
  | .error f => (t, .error f)
  | .ok dest =>
    if t.isDir source then
      if !recursive then trouble (.directory ("cp -r " ++ typed ++ " " ++ destTyped))
      else match copyDir s.now t source dest with
        | (t, .ok _) => (t, .ok ("Directory copied: " ++ source ++ " -> " ++ dest))
        | (t, .error f) => (t, .error f)
    else match t.copyFile s.now source dest with
      | .ok t => (t, .ok ("File copied: " ++ source ++ " -> " ++ dest))
      | .error e => (t, .error (.io (.cannot .cp (.copyTo source dest)) e))

/-- Moves one source. -/
def move (s : Setting) (w : Workspace) (destTyped : Text) (t : FileTree) (typed : Text) :
    FileTree × Answer :=
  let source := w.resolve s typed
  if !t.isThere source then
    (t, .error (Complaint.trouble .mv source .nothingThere : Failure))
  else match destination t source (w.resolve s destTyped) with
  | .error f => (t, .error f)
  | .ok dest =>
    match t.rename source dest with
    | .ok t => (t, .ok ("Moved: " ++ source ++ " -> " ++ dest))
    | .error e => (t, .error (.io (.cannot .mv (.move source dest)) e))

/-- The sources and the destination behind them. -/
def sourcesAndDest (arguments : List Text) : Option (List Text × Text) :=
  match (operands arguments).reverse with
  | dest :: source :: others => some ((source :: others).reverse, dest)
  | _ => none

def cp (s : Setting) (arguments : List Text) (w : Workspace) : Workspace × Answer :=
  match sourcesAndDest arguments with
  | none => (w, .error (Complaint.missing .cp "destination" "file.txt backup.txt" : Failure))
  | some (sources, dest) =>
    w.withTree (eachLine (copy s w (recursive arguments) dest) w.tree sources)

def mv (s : Setting) (arguments : List Text) (w : Workspace) : Workspace × Answer :=
  match sourcesAndDest arguments with
  | none => (w, .error (Complaint.missing .mv "destination" "old.txt new.txt" : Failure))
  | some (sources, dest) => w.withTree (eachLine (move s w dest) w.tree sources)

end Commands

end LineShell

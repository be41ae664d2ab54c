import LineShell.Proofs.Commands.Copy
import LineShell.Proofs.Files.Move

/-! What `mv` leaves of the things that it is given. Sources are moved one after another, and a
later move may replace what an earlier one has put somewhere, or lead the path there astray. What is
found at a destination in the end is told by tracing it back through all the moves. -/

namespace LineShell.Commands

open FileTree (FromRoot Relocated Relocation lookedUp)

/-- What is told of a source that was moved. -/
def moveLine (source dest : Path) : Text :=
  "Moved: " ++ source ++ " -> " ++ dest

/-- The path that a source had and the one that it got, and what was moved if the two are not one
thing anyway. -/
structure MoveReport where
  source : Path
  dest : Path
  log : List Relocation

def MoveReport.line (r : MoveReport) : Text :=
  moveLine r.source r.dest

/-- Moves one source, and reports what this came to. -/
def moveReport (s : Setting) (w : Workspace) (destTyped : Text) (t : FileTree) (typed : Text) :
    FileTree × Except Failure MoveReport :=
  let source := w.resolve s typed
  if !t.isThere source then
    (t, .error (Complaint.trouble .mv source .nothingThere : Failure))
  else match destination t source (w.resolve s destTyped) with
  | .error f => (t, .error f)
  | .ok dest =>
    match t.rename source dest with
    | .ok t' => (t', .ok { source, dest, log := (t.relocated? source dest).toList })
    | .error e => (t, .error (.io (.cannot .mv (.move source dest)) e))

theorem move_eq (s : Setting) (w : Workspace) (destTyped : Text) (t : FileTree) (typed : Text) :
    move s w destTyped t typed =
      ((moveReport s w destTyped t typed).1,
        (moveReport s w destTyped t typed).2.map MoveReport.line) := by
  simp only [move, moveReport]
  split
  case isTrue => rfl
  case isFalse =>
    cases destination t (w.resolve s typed) (w.resolve s destTyped) with
    | error f => rfl
    | ok dest =>
      simp only
      cases t.rename (w.resolve s typed) dest <;> rfl

theorem moveReport_relocated {s : Setting} {w : Workspace} {destTyped typed : Text}
    {t t' : FileTree} {r : MoveReport} (h : moveReport s w destTyped t typed = (t', .ok r)) :
    r.source = w.resolve s typed ∧ Relocated t t' r.log := by
  simp only [moveReport] at h
  split at h
  case isTrue => cases h
  case isFalse =>
    split at h
    case h_1 => cases h
    case h_2 =>
      split at h
      case h_2 => cases h
      case h_1 hrename =>
        cases h
        exact ⟨rfl, FileTree.rename_relocated hrename⟩

/-- Reports of one source after another tell the whole run. -/
theorem each_moveReport_relocated {s : Setting} {w : Workspace} {destTyped : Text}
    {t t' : FileTree} {sources : List Text} {reports : List MoveReport}
    (h : each (moveReport s w destTyped) t sources = (t', .ok reports)) :
    reports.map MoveReport.source = sources.map (w.resolve s) ∧
      Relocated t t' (reports.flatMap MoveReport.log) := by
  induction sources generalizing t reports with
  | nil => cases h; exact ⟨rfl, .refl _⟩
  | cons typed rest ih =>
    obtain ⟨t₁, r, later, hmove, hrest, rfl⟩ := exists_of_each_cons h
    obtain ⟨hsource, hmoved⟩ := moveReport_relocated hmove
    obtain ⟨hsources, hlater⟩ := ih hrest
    exact ⟨by rw [List.map_cons, List.map_cons, hsource, hsources], hmoved.trans hlater⟩

/-- The reports of an `mv` that succeeds. -/
theorem mv_eq_ok {s : Setting} {arguments : List Text} {w w' : Workspace} {text : Text}
    (h : mv s arguments w = (w', .ok text)) :
    ∃ sources dest reports, sourcesAndDest arguments = some (sources, dest) ∧
      each (moveReport s w dest) w.tree sources = (w'.tree, .ok reports) ∧
      text = Text.stacked (reports.map MoveReport.line) := by
  rw [mv] at h
  split at h
  case h_1 => cases h
  case h_2 sources dest hargs =>
    rw [eachLine, each_detailed _ _ (move_eq s w dest)] at h
    cases heach : each (moveReport s w dest) w.tree sources with
    | mk t r =>
      rw [heach] at h
      cases r with
      | error f => cases h
      | ok reports =>
        cases h
        exact ⟨sources, dest, reports, hargs, heach, rfl⟩

/-- The same file or link, or directories with the same permissions; and so for all that lies below
the one or the other. -/
def SameThing (n m : Node) : Prop :=
  ∀ x, Node.AgreeAt n m x

/-- Whatever was at a source that was moved is found at its destination, with all that was in
it. -/
def FindsAll (w : Workspace) (reports : List MoveReport) (t : FileTree) : Prop :=
  ∀ r ∈ reports, ∀ n, w.tree.node false r.source = .ok n →
    ∃ m, t.node false r.dest = .ok m ∧ SameThing n m

/-- The destination of whatever was moved leads somewhere, and what is there, location by location,
is traced back through all the moves to what was at the source. -/
def TracedBack (w : Workspace) (reports : List MoveReport) (t : FileTree) : Prop :=
  ∀ r ∈ reports, ∀ o n, w.tree.find false r.source = .ok (.entry o n) →
    ∃ l m, t.find false r.dest = .ok (.entry l m) ∧
      ∀ x, Option.Rel Node.Alike (w.tree.root.at? (x ++ o))
        (w.tree.traced (reports.flatMap MoveReport.log) (x ++ l))

/-- The moves spare one another, each starts where its source led before the first of them, and ends
where its destination leads after the last. -/
structure Unmixed (w : Workspace) (reports : List MoveReport) (t : FileTree) : Prop where
  spared : (reports.flatMap MoveReport.log).Pairwise Relocation.Spared
  goes : ∀ r ∈ reports, ∃ m n k, r.log = [m] ∧
    w.tree.find false r.source = .ok (.entry m.origin n) ∧
    t.find false r.dest = .ok (.entry m.place k)

private theorem findsAll_iff {w : Workspace} {reports : List MoveReport} {t : FileTree}
    (hmoved : Relocated w.tree t (reports.flatMap MoveReport.log)) :
    FindsAll w reports t ↔ TracedBack w reports t := by
  constructor
  · intro hfinds r hr o n hsource
    obtain ⟨m, hm, hsame⟩ := hfinds r hr n ((FileTree.node_eq_ok_iff _ _ _ _).mpr ⟨o, hsource⟩)
    obtain ⟨l, hdest⟩ := (FileTree.node_eq_ok_iff _ _ _ _).mp hm
    refine ⟨l, m, hdest, fun x => Node.rel_trans ?_ (Node.rel_symm (hmoved.entries _))⟩
    have hn : w.tree.root.at? o = some n := FileTree.find_holds hsource
    have hm : t.root.at? l = some m := FileTree.find_holds hdest
    rw [Node.at?_append, Node.at?_append, hn, hm]
    exact hsame x
  · intro htraced r hr n hnode
    obtain ⟨o, hsource⟩ := (FileTree.node_eq_ok_iff _ _ _ _).mp hnode
    obtain ⟨l, m, hdest, hsame⟩ := htraced r hr o n hsource
    refine ⟨m, (FileTree.node_eq_ok_iff _ _ _ _).mpr ⟨l, hdest⟩, fun x => ?_⟩
    have hn : w.tree.root.at? o = some n := FileTree.find_holds hsource
    have hm : t.root.at? l = some m := FileTree.find_holds hdest
    have hx := Node.rel_trans (hsame x) (hmoved.entries (x ++ l))
    rw [Node.at?_append, Node.at?_append, hn, hm] at hx
    exact hx

private theorem Unmixed.tracedBack {w : Workspace} {reports : List MoveReport} {t : FileTree}
    (h : Unmixed w reports t) : TracedBack w reports t := by
  intro r hr o n hsource
  obtain ⟨m, n', k, hlog, hfrom, hto⟩ := h.goes r hr
  obtain ⟨rfl, rfl⟩ : o = m.origin ∧ n = n' := by
    rw [hsource] at hfrom
    cases hfrom
    exact ⟨rfl, rfl⟩
  refine ⟨m.place, k, hto, fun x => Node.rel_of_eq ?_⟩
  have hm : m ∈ reports.flatMap MoveReport.log := List.mem_flatMap.mpr ⟨r, hr, by simp [hlog]⟩
  rw [FileTree.traced, Relocation.beforeAll_place h.spared hm, Option.bind_some]

/-- An `mv` that succeeds reports its sources in turn and changes no file. Whatever it moved is
found at its destination exactly where the moves, traced back from there, lead to what was at the
source. So it is where they spare one another and lead no path astray. -/
theorem mv_findsAll_iff {s : Setting} {arguments : List Text} {w w' : Workspace} {text : Text}
    (h : mv s arguments w = (w', .ok text)) :
    ∃ sources dest reports, sourcesAndDest arguments = some (sources, dest) ∧
      each (moveReport s w dest) w.tree sources = (w'.tree, .ok reports) ∧
      text = Text.stacked (reports.map MoveReport.line) ∧
      reports.map MoveReport.source = sources.map (w.resolve s) ∧
      Relocated w.tree w'.tree (reports.flatMap MoveReport.log) ∧
      (FindsAll w reports w'.tree ↔ TracedBack w reports w'.tree) ∧
      (Unmixed w reports w'.tree → FindsAll w reports w'.tree) := by
  obtain ⟨sources, dest, reports, hargs, heach, htext⟩ := mv_eq_ok h
  obtain ⟨hsources, hmoved⟩ := each_moveReport_relocated heach
  have hiff := findsAll_iff hmoved
  exact ⟨sources, dest, reports, hargs, heach, htext, hsources, hmoved, hiff,
    fun hunmixed => hiff.mpr hunmixed.tracedBack⟩

/-- A source that is there and can be renamed. -/
theorem moveReport_of_rename {s : Setting} {w : Workspace} {destTyped typed : Text}
    {t t' : FileTree} {dest : Path} (hthere : t.isThere (w.resolve s typed) = true)
    (hgoes : destination t (w.resolve s typed) (w.resolve s destTyped) = .ok dest)
    (hrename : t.rename (w.resolve s typed) dest = .ok t') :
    moveReport s w destTyped t typed =
      (t', .ok ⟨w.resolve s typed, dest, (t.relocated? (w.resolve s typed) dest).toList⟩) := by
  simp only [moveReport, hthere, hgoes, hrename]
  rfl

theorem move_of_rename {s : Setting} {w : Workspace} {destTyped typed : Text} {t t' : FileTree}
    {dest : Path} (hthere : t.isThere (w.resolve s typed) = true)
    (hgoes : destination t (w.resolve s typed) (w.resolve s destTyped) = .ok dest)
    (hrename : t.rename (w.resolve s typed) dest = .ok t') :
    move s w destTyped t typed = (t', .ok (moveLine (w.resolve s typed) dest)) := by
  rw [move_eq, moveReport_of_rename hthere hgoes hrename]
  rfl

/-- A root directory with some entries, and two files. -/
def inRoot (entries : List (Name × Node)) : FileTree :=
  { root := .dir 0o755 0 entries,
    files := [{ bytes := Text.encode ['A'], mode := 0o644, changed := 0 },
      { bytes := Text.encode ['B'], mode := 0o644, changed := 0 }] }

theorem find_inRoot (entries : List (Name × Node)) (follow : Bool) {p : Path} {name : Name}
    (hp : FromRoot p name) (hlink : (List.lookup name entries).any Node.isLink = false) :
    (inRoot entries).find follow p = .ok (lookedUp [] name entries) :=
  FileTree.find_fromRoot (by decide) (inRoot entries) rfl hp hlink

/-- A file in the root directory is moved to a name there that no directory has. -/
private theorem move_inRoot {w : Workspace} {c d : Char} {entries : List (Name × Node)} {i : Nat}
    {t : FileTree}
    (hc : w.resolve plainSetting [c] = ['/', c] ∧ FromRoot ['/', c] (Name.ofText [c]))
    (hd : w.resolve plainSetting [d] = ['/', d] ∧ FromRoot ['/', d] (Name.ofText [d]))
    (hfile : List.lookup (Name.ofText [c]) entries = some (.file i))
    (hlink : (List.lookup (Name.ofText [d]) entries).any Node.isLink = false)
    (hdir : (List.lookup (Name.ofText [d]) entries).any Node.isDir = false)
    (hrename : (inRoot entries).rename (['/', c] : Path) (['/', d] : Path) = .ok t) :
    move plainSetting w [d] (inRoot entries) [c] = (t, .ok (moveLine ['/', c] ['/', d])) := by
  have hsource := find_inRoot entries true hc.2 (by rw [hfile]; rfl)
  have hdest := find_inRoot entries true hd.2 hlink
  rw [lookedUp, hfile] at hsource
  have hthere : (inRoot entries).isThere (['/', c] : Path) = true := by
    simp [FileTree.isThere, FileTree.node, hsource, Except.toOption]
  have hnodir : (inRoot entries).isDir (['/', d] : Path) = false := by
    rw [FileTree.isDir, FileTree.node, hdest, lookedUp]
    cases hn : List.lookup (Name.ofText [d]) entries with
    | none => rfl
    | some n => rw [hn] at hdir; exact hdir
  rw [← hc.1, ← hd.1] at hrename
  rw [← hc.1, ← hd.1]
  refine move_of_rename (hc.1 ▸ hthere) ?_ hrename
  rw [destination, hd.1, hnodir]
  rfl

/-- The tree with two files before anything is moved, after one move, and after two. -/
def twoFiles : FileTree :=
  inRoot [(Name.ofText ['f'], .file 0), (Name.ofText ['g'], .file 1)]

def oneMoved : FileTree :=
  inRoot [(Name.ofText ['g'], .file 1), (Name.ofText ['c'], .file 0)]

def bothMoved : FileTree :=
  inRoot [(Name.ofText ['c'], .file 1)]

/-- Of two files that are moved to one name that no directory has, the second replaces the first,
and the command reports both moves. -/
theorem mv_onto_each_other :
    mv plainSetting [['f'], ['g'], ['c']] { cwd := ['/'], tree := twoFiles } =
        ({ cwd := ['/'], tree := bothMoved },
          .ok (Text.stacked [moveLine ['/', 'f'] ['/', 'c'], moveLine ['/', 'g'] ['/', 'c']])) ∧
      twoFiles.node false (['/', 'f'] : Path) = .ok (.file 0) ∧
      bothMoved.node false (['/', 'c'] : Path) = .ok (.file 1) := by
  have hc : FromRoot ['/', 'c'] (Name.ofText ['c']) := by decide
  have hf : FromRoot ['/', 'f'] (Name.ofText ['f']) := by decide
  have hg : FromRoot ['/', 'g'] (Name.ofText ['g']) := by decide
  have hrename₁ : twoFiles.rename (['/', 'f'] : Path) (['/', 'c'] : Path) = .ok oneMoved := by
    rw [FileTree.rename, twoFiles, find_inRoot _ false hf rfl, find_inRoot _ false hc rfl]
    rfl
  have hrename₂ : oneMoved.rename (['/', 'g'] : Path) (['/', 'c'] : Path) = .ok bothMoved := by
    rw [FileTree.rename, oneMoved, find_inRoot _ false hg rfl, find_inRoot _ false hc rfl]
    rfl
  let w : Workspace := { cwd := ['/'], tree := twoFiles }
  have hmove₁ : move plainSetting w ['c'] twoFiles ['f'] =
      (oneMoved, .ok (moveLine ['/', 'f'] ['/', 'c'])) :=
    move_inRoot ⟨by decide, hf⟩ ⟨by decide, hc⟩ rfl rfl rfl hrename₁
  have hmove₂ : move plainSetting w ['c'] oneMoved ['g'] =
      (bothMoved, .ok (moveLine ['/', 'g'] ['/', 'c'])) :=
    move_inRoot ⟨by decide, hg⟩ ⟨by decide, hc⟩ rfl rfl rfl hrename₂
  refine ⟨?_, ?_, ?_⟩
  · rw [mv, show sourcesAndDest [['f'], ['g'], ['c']] = some ([['f'], ['g']], ['c']) from by decide]
    simp only [eachLine, each]
    rw [hmove₁]
    simp only
    rw [hmove₂]
    rfl
  · rw [FileTree.node, twoFiles, find_inRoot _ false hf rfl]
    rfl
  · rw [FileTree.node, bothMoved, find_inRoot _ false hc rfl]
    rfl

/-- A path of two names from the root. -/
def FromDirectory (p : Path) (dir name : Name) : Prop :=
  FileTree.Nameable p ∧ Place.walked p = [.root, .name dir, .name name] ∧
    dir.size ≤ FileTree.nameLimit ∧ name.size ≤ FileTree.nameLimit

instance (p : Path) (dir name : Name) : Decidable (FromDirectory p dir name) := by
  unfold FromDirectory; infer_instance

theorem find_inDirectory (entries inner : List (Name × Node)) (follow : Bool) {p : Path}
    {dir name : Name} (hp : FromDirectory p dir name)
    (hdir : List.lookup dir entries = some (.dir 0o755 0 inner))
    (hlink : (List.lookup name inner).any Node.isLink = false) :
    (inRoot entries).find follow p = .ok (lookedUp [dir] name inner) := by
  obtain ⟨hname, hwalk, hdirsize, hsize⟩ := hp
  refine (FileTree.find_eq_ok_iff _ _ _ _).mpr ⟨hname, ?_⟩
  rw [hwalk]
  have hsearch : Access.search.granted 0o755 = true := by decide
  have hroot : FileTree.Passable (inRoot entries).root [] :=
    ⟨.dir 0o755 0 entries, rfl, rfl, hsearch⟩
  have hat : (inRoot entries).root.at? [dir] = some (.dir 0o755 0 inner) :=
    (Node.at?_singleton dir _).trans hdir
  exact .root hroot (.enter hroot hdirsize hat rfl (.lookedUp hsearch hat hsize hlink))

/-- The tree with an empty directory and two files beside it, after one of them is moved into the
directory, and after the other is. -/
def besideDirectory : FileTree :=
  inRoot [(Name.ofText ['f'], .file 0), (Name.ofText ['g'], .file 1),
    (Name.ofText ['d'], .dir 0o755 0 [])]

def oneInDirectory : FileTree :=
  inRoot [(Name.ofText ['g'], .file 1),
    (Name.ofText ['d'], .dir 0o755 0 [(Name.ofText ['f'], .file 0)])]

def bothInDirectory : FileTree :=
  inRoot [(Name.ofText ['d'],
    .dir 0o755 0 [(Name.ofText ['f'], .file 0), (Name.ofText ['g'], .file 1)])]

/-- The moves of both files into the directory. -/
def intoDirectory : List MoveReport :=
  [{ source := ['/', 'f'], dest := ['/', 'd', '/', 'f'],
     log := [⟨[Name.ofText ['f']], [Name.ofText ['f'], Name.ofText ['d']]⟩] },
   { source := ['/', 'g'], dest := ['/', 'd', '/', 'g'],
     log := [⟨[Name.ofText ['g']], [Name.ofText ['g'], Name.ofText ['d']]⟩] }]

private theorem isDir_inRoot {entries : List (Name × Node)} {p : Path} {name : Name} {n : Node}
    (hp : FromRoot p name) (hn : List.lookup name entries = some n) (hlink : n.isLink = false) :
    (inRoot entries).isDir p = n.isDir ∧ (inRoot entries).isThere p = true := by
  have hfind := find_inRoot entries true hp (by rw [hn]; exact hlink)
  rw [lookedUp, hn] at hfind
  simp [FileTree.isDir, FileTree.isThere, FileTree.node, hfind, Except.toOption]

/-- A file in the root directory is moved into a directory beside it, where its name is free. -/
private theorem moveReport_intoDirectory {w : Workspace} {c d : Char}
    {entries inner : List (Name × Node)} {i : Nat}
    (hc : w.resolve plainSetting [c] = ['/', c] ∧ FromRoot ['/', c] (Name.ofText [c]))
    (hd : w.resolve plainSetting [d] = ['/', d] ∧ FromRoot ['/', d] (Name.ofText [d]))
    (hdc : FromDirectory ['/', d, '/', c] (Name.ofText [d]) (Name.ofText [c]))
    (hjoin : (Path.fileName? ['/', c]).map (Path.join ['/', d]) = some ['/', d, '/', c])
    (hne : Name.ofText [c] ≠ Name.ofText [d])
    (hfile : List.lookup (Name.ofText [c]) entries = some (.file i))
    (hdir : List.lookup (Name.ofText [d]) entries = some (.dir 0o755 0 inner))
    (hfree : List.lookup (Name.ofText [c]) inner = none) :
    moveReport plainSetting w [d] (inRoot entries) [c] =
      ((inRoot entries).move [] (Name.ofText [c]) (.file i) [Name.ofText [d]] (Name.ofText [c]),
        .ok ⟨['/', c], ['/', d, '/', c],
          [⟨[Name.ofText [c]], [Name.ofText [c], Name.ofText [d]]⟩]⟩) := by
  have hsource := find_inRoot entries false hc.2 (by rw [hfile]; rfl)
  have hdest := find_inDirectory entries inner false hdc hdir (by rw [hfree]; rfl)
  rw [lookedUp, hfile] at hsource
  rw [lookedUp, hfree] at hdest
  have hthere : (inRoot entries).isThere (w.resolve plainSetting [c]) = true := by
    rw [hc.1]
    exact (isDir_inRoot hc.2 hfile rfl).2
  have hgoes : destination (inRoot entries) (w.resolve plainSetting [c])
      (w.resolve plainSetting [d]) = .ok ['/', d, '/', c] := by
    obtain ⟨name, hname, hpath⟩ := Option.map_eq_some_iff.mp hjoin
    rw [hc.1, hd.1, destination, (isDir_inRoot hd.2 hdir rfl).1, hname, ← hpath]
    rfl
  have hmay : (inRoot entries).mayChange [Name.ofText [d]] = true := by
    have hat : (inRoot entries).root.at? [Name.ofText [d]] = some (.dir 0o755 0 inner) :=
      (Node.at?_singleton _ _).trans hdir
    rw [FileTree.mayChange, hat]
    rfl
  have hrename : (inRoot entries).rename (['/', c] : Path) (['/', d, '/', c] : Path) =
      .ok ((inRoot entries).move [] (Name.ofText [c]) (.file i) [Name.ofText [d]]
        (Name.ofText [c])) := by
    have hapart : ¬ [Name.ofText [c]] <:+ [Name.ofText [d]] := by
      simpa [List.suffix_cons_iff] using hne
    have hroot : (inRoot entries).mayChange [] = true := rfl
    rw [FileTree.rename, hsource, hdest]
    simp [hapart, hroot, hmay, Node.isDir]
  rw [moveReport_of_rename hthere hgoes (by rw [hc.1]; exact hrename), hc.1, FileTree.relocated?,
    hsource, hdest]
  rfl

private theorem each_intoDirectory :
    each (moveReport plainSetting { cwd := ['/'], tree := besideDirectory } ['d']) besideDirectory
        [['f'], ['g']] = (bothInDirectory, .ok intoDirectory) := by
  let w : Workspace := { cwd := ['/'], tree := besideDirectory }
  have hd : w.resolve plainSetting ['d'] = ['/', 'd'] ∧
      FromRoot ['/', 'd'] (Name.ofText ['d']) := by decide
  have hmove₁ : moveReport plainSetting w ['d'] besideDirectory ['f'] = (oneInDirectory, _) :=
    moveReport_intoDirectory (by decide) hd (by decide) (by decide) (by decide) rfl rfl rfl
  have hmove₂ : moveReport plainSetting w ['d'] oneInDirectory ['g'] = (bothInDirectory, _) :=
    moveReport_intoDirectory (by decide) hd (by decide) (by decide) (by decide) rfl rfl rfl
  rw [each, hmove₁]
  simp only
  rw [each, hmove₂]
  rfl

private theorem mv_intoDirectory :
    mv plainSetting [['f'], ['g'], ['d']] { cwd := ['/'], tree := besideDirectory } =
      ({ cwd := ['/'], tree := bothInDirectory },
        .ok (Text.stacked (intoDirectory.map MoveReport.line))) := by
  rw [mv, show sourcesAndDest [['f'], ['g'], ['d']] = some ([['f'], ['g']], ['d']) from by decide]
  simp only [eachLine, each_detailed _ _ (move_eq plainSetting _ ['d']), each_intoDirectory]
  rfl

private theorem unmixed_intoDirectory :
    Unmixed { cwd := ['/'], tree := besideDirectory } intoDirectory bothInDirectory := by
  have hf : FromRoot ['/', 'f'] (Name.ofText ['f']) := by decide
  have hg : FromRoot ['/', 'g'] (Name.ofText ['g']) := by decide
  have hdf : FromDirectory ['/', 'd', '/', 'f'] (Name.ofText ['d']) (Name.ofText ['f']) := by decide
  have hdg : FromDirectory ['/', 'd', '/', 'g'] (Name.ofText ['d']) (Name.ofText ['g']) := by decide
  let inner : List (Name × Node) := [(Name.ofText ['f'], .file 0), (Name.ofText ['g'], .file 1)]
  refine ⟨List.pairwise_cons.mpr ⟨fun m hm => ?_, List.pairwise_singleton _ _⟩, ?_⟩
  · obtain rfl := List.mem_singleton.mp hm
    exact ⟨by decide, by decide, by decide⟩
  · intro r hr
    simp only [intoDirectory, List.mem_cons, List.not_mem_nil, or_false] at hr
    rcases hr with rfl | rfl
    · exact ⟨_, _, _, rfl, find_inRoot _ false hf rfl, find_inDirectory _ inner false hdf rfl rfl⟩
    · exact ⟨_, _, _, rfl, find_inRoot _ false hg rfl, find_inDirectory _ inner false hdg rfl rfl⟩

theorem mv_findsAll_intoDirectory :
    mv plainSetting [['f'], ['g'], ['d']] { cwd := ['/'], tree := besideDirectory } =
        ({ cwd := ['/'], tree := bothInDirectory },
          .ok (Text.stacked (intoDirectory.map MoveReport.line))) ∧
      Relocated besideDirectory bothInDirectory (intoDirectory.flatMap MoveReport.log) ∧
      Unmixed { cwd := ['/'], tree := besideDirectory } intoDirectory bothInDirectory ∧
      FindsAll { cwd := ['/'], tree := besideDirectory } intoDirectory bothInDirectory := by
  obtain ⟨sources, dest, reports, hargs, heach, -, -, hmoved, -, hfinds⟩ :=
    mv_findsAll_iff mv_intoDirectory
  rw [show sourcesAndDest [['f'], ['g'], ['d']] = some ([['f'], ['g']], ['d']) from by decide]
    at hargs
  cases hargs
  obtain rfl : intoDirectory = reports :=
    Except.ok.inj (Prod.ext_iff.mp (each_intoDirectory.symm.trans heach)).2
  exact ⟨mv_intoDirectory, hmoved, unmixed_intoDirectory, hfinds unmixed_intoDirectory⟩

end LineShell.Commands

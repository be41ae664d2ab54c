import LineShell.Proofs.Files.Walk

/-! Trees without the times in them. No operation asks for a time that is kept in a tree, so that
each does on a tree without its times what it does on the tree itself. -/

namespace LineShell

mutual

/-- A node with all times in it set to the beginning. -/
def Node.timeless : Node → Node
  | .file id => .file id
  | .link target _ => .link target 0
  | .sink => .sink
  | .dir mode _ es => .dir mode 0 (Node.timelessEntries es)

def Node.timelessEntries : List (Name × Node) → List (Name × Node)
  | [] => []
  | (name, n) :: rest => (name, n.timeless) :: Node.timelessEntries rest

end

namespace Node

theorem timelessEntries_eq_map (es : List (Name × Node)) :
    timelessEntries es = es.map fun e => (e.1, e.2.timeless) := by
  induction es with
  | nil => rfl
  | cons e es ih => rw [timelessEntries, ih, List.map_cons]

@[simp]
theorem timeless_file (id : Nat) : (file id).timeless = file id := by
  rw [timeless]

@[simp]
theorem timeless_link (target : Path) (changed : Time) :
    (link target changed).timeless = link target 0 := by
  rw [timeless]

@[simp]
theorem timeless_dir (mode : Nat) (changed : Time) (es : List (Name × Node)) :
    (dir mode changed es).timeless = dir mode 0 (es.map fun e => (e.1, e.2.timeless)) := by
  rw [timeless, timelessEntries_eq_map]

@[simp]
theorem isDir_timeless (n : Node) : n.timeless.isDir = n.isDir := by
  cases n <;> simp [timeless, isDir]

@[simp]
theorem isLink_timeless (n : Node) : n.timeless.isLink = n.isLink := by
  cases n <;> simp [timeless, isLink]

@[simp]
theorem grants_timeless (access : Access) (n : Node) :
    n.timeless.grants access = n.grants access := by
  cases n <;> simp [timeless, grants]

@[simp]
theorem entries_timeless (n : Node) :
    n.timeless.entries = n.entries.map fun e => (e.1, e.2.timeless) := by
  cases n <;> simp [timeless, entries, timelessEntries_eq_map]

theorem lookup_timeless (name : Name) (es : List (Name × Node)) :
    List.lookup name (es.map fun e => (e.1, e.2.timeless)) =
      (List.lookup name es).map timeless := by
  induction es with
  | nil => rfl
  | cons e es ih =>
    rw [List.map_cons, List.lookup_cons, List.lookup_cons, ih]
    split <;> rfl

@[simp]
theorem entry?_timeless (n : Node) (name : Name) :
    n.timeless.entry? name = (n.entry? name).map timeless := by
  rw [Node.entry?, entries_timeless, lookup_timeless, Node.entry?]

theorem down_timeless (way : List Name) (n : Node) :
    n.timeless.down way = (n.down way).map timeless := by
  induction way generalizing n with
  | nil => rfl
  | cons name way ih =>
    rw [down, down, entry?_timeless]
    cases n.entry? name with
    | none => rfl
    | some m => exact ih m

@[simp]
theorem at?_timeless (l : Location) (n : Node) : n.timeless.at? l = (n.at? l).map timeless :=
  down_timeless l.reverse n

theorem putEntry_timeless (name : Name) (n : Node) (es : List (Name × Node)) :
    (putEntry name n es).map (fun e => (e.1, e.2.timeless)) =
      putEntry name n.timeless (es.map fun e => (e.1, e.2.timeless)) := by
  induction es with
  | nil => rfl
  | cons e es ih =>
    simp only [putEntry, List.map_cons]
    split
    · rfl
    · rw [List.map_cons, ih]

theorem put_timeless (d : Node) (name : Name) (n : Node) :
    (d.put name n).timeless = d.timeless.put name n.timeless := by
  cases d with
  | dir mode changed es => simp only [put, timeless_dir, putEntry_timeless]
  | _ => simp [put, timeless]

theorem erase_timeless (d : Node) (name : Name) :
    (d.erase name).timeless = d.timeless.erase name := by
  cases d with
  | dir mode changed es => simp only [erase, timeless_dir, List.filter_map, Function.comp_def]
  | _ => simp [erase, timeless]

theorem changeDown_timeless {f g : Node → Node} (h : ∀ n, (f n).timeless = g n.timeless)
    (way : List Name) (n : Node) :
    (n.changeDown f way).timeless = n.timeless.changeDown g way := by
  induction way generalizing n with
  | nil => exact h n
  | cons name way ih =>
    cases n with
    | dir mode changed es =>
      simp only [changeDown, timeless_dir, List.map_map]
      congr 1
      refine List.map_congr_left fun e _ => ?_
      simp only [Function.comp]
      split
      · rw [ih]
      · rfl
    | _ => simp [changeDown, timeless]

theorem changeAt_timeless {f g : Node → Node} (h : ∀ n, (f n).timeless = g n.timeless)
    (l : Location) (n : Node) : (n.changeAt f l).timeless = n.timeless.changeAt g l :=
  changeDown_timeless h l.reverse n

mutual

theorem cleared_timeless : ∀ n : Node, n.timeless.cleared = n.cleared.map timeless id
  | .file id => by rw [timeless]; rfl
  | .link target changed => by rw [timeless]; rfl
  | .sink => by rw [timeless]; rfl
  | .dir mode changed es => by
    rw [timeless, cleared, cleared, clearedEntries_timeless]
    split
    · rfl
    · simp [timelessEntries_eq_map]

theorem clearedEntries_timeless (mayChange maySearch : Bool) : ∀ es : List (Name × Node),
    clearedEntries mayChange maySearch (timelessEntries es) =
      (clearedEntries mayChange maySearch es).map timelessEntries id
  | [] => rfl
  | (name, n) :: rest => by
    rw [timelessEntries, clearedEntries, clearedEntries, isDir_timeless, cleared_timeless n,
      clearedEntries_timeless mayChange maySearch rest]
    split
    · rfl
    · cases n.cleared with
      | mk m e =>
        cases e with
        | some e => rfl
        | none => cases mayChange <;> rfl

end

end Node

/-- A file as if it had been written at the beginning. -/
def FileData.timeless (f : FileData) : FileData :=
  { f with changed := 0 }

namespace FileTree

def timeless (t : FileTree) : FileTree :=
  { root := t.root.timeless, files := t.files.map FileData.timeless }

def Target.timeless : Target → Target
  | .entry l n => .entry l n.timeless
  | .vacant parent name => .vacant parent name

def Trail.timeless (trail : Trail) : Trail :=
  trail.map fun e => (e.1, e.2.timeless)

variable (t : FileTree) (follow : Bool) (p : Place) (l : Location)

theorem Trail.location_timeless (trail : Trail) : trail.timeless.location = trail.location := by
  simp [Trail.location, Trail.timeless]

theorem standing_timeless (trail : Trail) :
    t.timeless.standing trail.timeless = (t.standing trail).timeless := by
  cases trail <;> rfl

section Looking

theorem walk_timeless (links : Nat) (trail : Trail) (todo : List (Component Name)) :
    t.timeless.walk follow links trail.timeless todo =
      (t.walk follow links trail todo).map Target.timeless := by
  fun_induction walk t follow links trail todo
  case case1 =>
    rw [walk, standing_timeless, Trail.location_timeless]
    rfl
  case case2 step _ _ hdir =>
    cases step <;> rw [walk, standing_timeless, Node.isDir_timeless, if_pos hdir] <;> rfl
  case case3 hdir hstay =>
    obtain ⟨rfl, -⟩ := id hstay
    rw [walk, standing_timeless, Node.isDir_timeless, if_neg hdir, if_pos hstay,
      Trail.location_timeless]
    rfl
  case case4 step _ _ hdir hstay hsearch =>
    cases step <;> rw [walk, standing_timeless, Node.isDir_timeless, if_neg hdir, if_neg hstay,
      Node.grants_timeless, if_pos hsearch] <;> rfl
  case case5 hdir hsearch hstay ih | case6 hdir hsearch hstay ih =>
    rw [walk, standing_timeless, Node.isDir_timeless, if_neg hdir, if_neg hstay,
      Node.grants_timeless, if_neg hsearch]
    exact ih
  case case7 hdir hsearch hstay ih =>
    rw [walk, standing_timeless, Node.isDir_timeless, if_neg hdir, if_neg hstay,
      Node.grants_timeless, if_neg hsearch, ← ih, Trail.timeless, Trail.timeless, List.map_tail]
  case case8 hdir hsearch name hsize hstay =>
    rw [walk, standing_timeless, Node.isDir_timeless, if_neg hdir, if_neg hstay,
      Node.grants_timeless, if_neg hsearch, if_pos hsize]
    rfl
  case case9 hdir hsearch name hsize hname hend hstay =>
    rw [walk, standing_timeless, Node.isDir_timeless, if_neg hdir, if_neg hstay,
      Node.grants_timeless, if_neg hsearch, if_neg hsize, Node.entry?_timeless, hname]
    simp only [Option.map_none, hend, if_true, Trail.location_timeless]
    rfl
  case case10 hdir hsearch name hsize hname hend hstay =>
    rw [walk, standing_timeless, Node.isDir_timeless, if_neg hdir, if_neg hstay,
      Node.grants_timeless, if_neg hsearch, if_neg hsize, Node.entry?_timeless, hname]
    simp only [Option.map_none, hend]
    rfl
  case case11 hdir hsearch name hsize target changed hname hend hstay =>
    rw [walk, standing_timeless, Node.isDir_timeless, if_neg hdir, if_neg hstay,
      Node.grants_timeless, if_neg hsearch, if_neg hsize, Node.entry?_timeless, hname]
    simp only [Option.map_some, Node.timeless_link, hend, if_true, Trail.location_timeless,
      Except.map, Target.timeless]
  case case12 hdir hsearch name hsize target changed hname hend hstay =>
    rw [walk, standing_timeless, Node.isDir_timeless, if_neg hdir, if_neg hstay,
      Node.grants_timeless, if_neg hsearch, if_neg hsize, Node.entry?_timeless, hname]
    simp only [Option.map_some, Node.timeless_link, hend]
    rfl
  case case13 hdir hsearch name hsize target changed hname hend links hstay ih =>
    rw [walk, standing_timeless, Node.isDir_timeless, if_neg hdir, if_neg hstay,
      Node.grants_timeless, if_neg hsearch, if_neg hsize, Node.entry?_timeless, hname]
    simp only [Option.map_some, Node.timeless_link, hend]
    exact ih
  case case14 hdir hsearch name hsize m hlink hname hstay ih =>
    rw [walk, standing_timeless, Node.isDir_timeless, if_neg hdir, if_neg hstay,
      Node.grants_timeless, if_neg hsearch, if_neg hsize, Node.entry?_timeless, hname]
    cases m with
    | link target changed => exact absurd rfl (hlink target changed)
    | _ => simpa [Node.timeless, Trail.timeless] using ih

theorem find_timeless :
    t.timeless.find follow p = (t.find follow p).map Target.timeless := by
  rw [find, find, show t.timeless.walk follow linkLimit [] p.walked = _ from
    t.walk_timeless follow linkLimit [] p.walked]
  split_ifs
  case neg => cases t.walk follow linkLimit [] p.walked <;> rfl
  all_goals rfl

theorem node_timeless : t.timeless.node follow p = (t.node follow p).map Node.timeless := by
  rw [node, node, find_timeless]
  cases t.find follow p with
  | error e => rfl
  | ok target => cases target <;> rfl

@[simp]
theorem isThere_timeless : t.timeless.isThere p = t.isThere p := by
  rw [isThere, isThere, node_timeless]
  cases t.node true p <;> rfl

@[simp]
theorem isDir_timeless : t.timeless.isDir p = t.isDir p := by
  rw [isDir, isDir, node_timeless]
  cases t.node true p with
  | error e => rfl
  | ok n => exact n.isDir_timeless

@[simp]
theorem isLink_timeless : t.timeless.isLink p = t.isLink p := by
  rw [isLink, isLink, node_timeless]
  cases t.node false p with
  | error e => rfl
  | ok n => exact n.isLink_timeless

@[simp]
theorem grants_timeless (access : Access) (n : Node) :
    t.timeless.grants access n.timeless = t.grants access n := by
  cases n with
  | file id =>
    rw [Node.timeless_file, grants, grants, timeless, List.getElem?_map]
    cases t.files[id]? <;> rfl
  | link | sink | dir => simp [grants, Node.timeless, Node.grants]

theorem list_timeless :
    t.timeless.list p = (t.list p).map (List.map fun e => (e.1, e.2.timeless)) := by
  rw [list, list, node_timeless]
  cases t.node true p with
  | error e => rfl
  | ok n =>
    simp only [Except.map, Node.isDir_timeless, Node.grants_timeless, Node.entries_timeless]
    split_ifs <;> rfl

@[simp]
theorem mayChange_timeless : t.timeless.mayChange l = t.mayChange l := by
  rw [mayChange, mayChange, timeless, Node.at?_timeless]
  cases t.root.at? l <;> simp

end Looking

section Changing

variable (now : Time)

theorem changeDir_timeless {f g : Node → Node} (h : ∀ n, (f n).timeless = g n.timeless) :
    (t.changeDir l f).timeless = t.timeless.changeDir l g := by
  rw [changeDir, changeDir, timeless, timeless, Node.changeAt_timeless h]

theorem changeFile_timeless {f g : FileData → FileData}
    (h : ∀ d, (f d).timeless = g d.timeless) (id : Nat) :
    (t.changeFile id f).timeless = t.timeless.changeFile id g := by
  refine congrArg (FileTree.mk t.root.timeless) (List.ext_getElem? fun k => ?_)
  simp only [changeFile, timeless, List.getElem?_map, List.getElem?_modify]
  cases t.files[k]? with
  | none => rfl
  | some d =>
    simp only [Option.map_eq_map, Option.map_some]
    split <;> simp [h]

theorem newFile_timeless (parent : Location) (name : Name) (data : FileData) :
    t.timeless.newFile parent name data.timeless =
      (t.newFile parent name data).map timeless id := by
  have hput : (t.root.changeAt (·.put name (.file t.files.length)) parent).timeless =
      t.root.timeless.changeAt (·.put name (.file t.files.length)) parent :=
    Node.changeAt_timeless (fun d => by rw [Node.put_timeless, Node.timeless_file]) parent t.root
  simp [newFile, changeDir, timeless, hput]

theorem openForWriting_timeless : t.timeless.openForWriting 0 p =
    (t.openForWriting now p).map (Prod.map timeless id) := by
  rw [openForWriting, openForWriting, find_timeless]
  cases t.find true p with
  | error e => rfl
  | ok target =>
    cases target with
    | vacant parent name =>
      simp only [Except.map, Target.timeless, mayChange_timeless]
      split_ifs
      · exact congrArg (fun r => Except.ok (r.1, some r.2))
          (t.newFile_timeless parent name { bytes := [], mode := newFileMode, changed := now })
      · rfl
    | entry l n =>
      simp only [Except.map, Target.timeless, Node.isDir_timeless, grants_timeless]
      split_ifs
      · rfl
      · rfl
      · cases n <;> simp [Node.timeless]

theorem changeAt_timeless {f g : FileData → FileData}
    (h : ∀ d, (f d).timeless = g d.timeless) :
    t.timeless.changeAt 0 p g = (t.changeAt now p f).map timeless := by
  rw [changeAt, changeAt, openForWriting_timeless t p now]
  rcases t.openForWriting now p with e | ⟨t', id | id⟩
  · rfl
  · rfl
  · exact congrArg Except.ok (t'.changeFile_timeless h id).symm

theorem overwrite_timeless (bytes : Text.Bytes) :
    t.timeless.overwrite 0 p bytes = (t.overwrite now p bytes).map timeless :=
  t.changeAt_timeless p now fun _ => rfl

theorem touch_timeless : t.timeless.touch 0 p = (t.touch now p).map timeless :=
  t.changeAt_timeless p now fun _ => rfl

theorem copyFile_timeless (source dest : Place) :
    t.timeless.copyFile 0 source dest = (t.copyFile now source dest).map timeless := by
  rw [copyFile, copyFile, node_timeless]
  cases t.node true source with
  | error e => rfl
  | ok n =>
    simp only [Except.map, grants_timeless]
    split_ifs
    · rfl
    · cases n with
      | file old =>
        rw [Node.timeless_file]
        simp only [openForWriting_timeless t dest now]
        rcases t.openForWriting now dest with e | ⟨t', new | new⟩
        · rfl
        · rfl
        · have hempty :
              (t'.changeFile new fun f => { f with bytes := [], changed := now }).timeless =
                t'.timeless.changeFile new fun f => { f with bytes := [], changed := 0 } :=
            t'.changeFile_timeless (by intro f; rfl) new
          simp only [Except.map, Prod.map, id, ← hempty]
          generalize t'.changeFile new _ = emptied
          rw [show emptied.timeless.files[old]? = _ from List.getElem?_map]
          cases emptied.files[old]? with
          | none => rfl
          | some data =>
            exact congrArg Except.ok (emptied.changeFile_timeless (by intro f; rfl) new).symm
      | _ => simp [Node.timeless]

theorem createDir_timeless :
    t.timeless.createDir 0 p = (t.createDir now p).map timeless := by
  rw [createDir, createDir, find_timeless]
  cases t.find false p with
  | error e => rfl
  | ok target =>
    cases target with
    | entry l n => rfl
    | vacant parent name =>
      simp only [Except.map, Target.timeless, mayChange_timeless]
      split_ifs
      · refine congrArg Except.ok (t.changeDir_timeless parent fun d => ?_).symm
        rw [Node.put_timeless, Node.timeless_dir, List.map_nil]
      · rfl

theorem createEach_timeless (places : List Place) :
    t.timeless.createEach 0 places = (t.createEach now places).map timeless id := by
  induction places generalizing t with
  | nil => rfl
  | cons p below ih =>
    rw [createEach, createEach, createDir_timeless t p now, isDir_timeless]
    cases t.createDir now p with
    | ok t' => exact ih t'
    | error e =>
      simp only [Except.map]
      split_ifs
      · exact ih t
      · rfl

theorem createDirs_timeless (missing places : List Place) :
    t.timeless.createDirs 0 missing places = (t.createDirs now missing places).map timeless id := by
  induction places generalizing missing with
  | nil => exact t.createEach_timeless now missing
  | cons p above ih =>
    rw [createDirs, createDirs, createDir_timeless t p now, isDir_timeless]
    cases t.createDir now p with
    | ok t' => exact t'.createEach_timeless now missing
    | error e =>
      simp only [Except.map]
      split_ifs
      · exact ih (p :: missing)
      · exact t.createEach_timeless now missing
      · rfl

theorem createDirAll_timeless :
    t.timeless.createDirAll 0 p = (t.createDirAll now p).map timeless id :=
  t.createDirs_timeless now [] _

theorem removable_timeless : t.timeless.removable p =
    (t.removable p).map fun r => (r.1, r.2.1, r.2.2.timeless) := by
  rw [removable, removable, find_timeless]
  cases t.find false p with
  | error e => rfl
  | ok target =>
    cases target with
    | vacant parent name => rfl
    | entry l n =>
      cases l with
      | nil => rfl
      | cons name parent =>
        simp only [Except.map, Target.timeless, mayChange_timeless]
        split_ifs <;> rfl

theorem removeDir_timeless :
    t.timeless.removeDir p = (t.removeDir p).map timeless := by
  rw [removeDir, removeDir, removable_timeless]
  rcases t.removable p with e | ⟨parent, name, n⟩
  · rfl
  · simp only [Except.map, Node.isDir_timeless, Node.entries_timeless, List.isEmpty_map]
    split_ifs
    · rfl
    · rfl
    · exact congrArg Except.ok (t.changeDir_timeless parent (Node.erase_timeless · name)).symm

theorem unlink_timeless : t.timeless.unlink p = (t.unlink p).map timeless := by
  rw [unlink, unlink, removable_timeless]
  rcases t.removable p with e | ⟨parent, name, n⟩
  · rfl
  · simp only [Except.map, Node.isDir_timeless]
    split_ifs
    · rfl
    · exact congrArg Except.ok (t.changeDir_timeless parent (Node.erase_timeless · name)).symm

theorem removeTree_timeless :
    t.timeless.removeTree p = (t.removeTree p).map timeless id := by
  rw [removeTree, removeTree, find_timeless, unlink_timeless]
  cases t.find false p with
  | error e => rfl
  | ok target =>
    cases target with
    | vacant parent name => rfl
    | entry l n =>
      simp only [Except.map, Target.timeless, Node.isLink_timeless, Node.isDir_timeless]
      split_ifs
      · cases t.unlink p <;> rfl
      · rfl
      · have hclear : (t.changeDir l fun _ => n.cleared.1).timeless =
            t.timeless.changeDir l fun _ => n.cleared.1.timeless :=
          t.changeDir_timeless l fun _ => rfl
        rw [Node.cleared_timeless]
        simp only [Prod.map, id, ← hclear]
        cases n.cleared.2 with
        | some e => rfl
        | none =>
          simp only [removeDir_timeless]
          cases (t.changeDir l fun _ => n.cleared.1).removeDir p <;> rfl

theorem move_timeless (parent : Location) (name : Name) (n : Node) (newParent : Location)
    (newName : Name) : t.timeless.move parent name n.timeless newParent newName =
      (t.move parent name n newParent newName).timeless := by
  have herase : (t.changeDir parent (·.erase name)).timeless =
      t.timeless.changeDir parent (·.erase name) :=
    t.changeDir_timeless parent (Node.erase_timeless · name)
  rw [move, move, ← herase]
  exact (changeDir_timeless _ newParent fun d => d.put_timeless newName n).symm

theorem sameFile_timeless (n m : Node) : sameFile n.timeless m.timeless = sameFile n m := by
  cases n <;> cases m <;> simp [Node.timeless, sameFile]

theorem rename_timeless (source dest : Place) :
    t.timeless.rename source dest = (t.rename source dest).map timeless := by
  rw [rename, rename, find_timeless, find_timeless]
  rcases t.find false source with e | ⟨_ | ⟨name, parent⟩, n⟩ | ⟨parent, name⟩
  · rfl
  · rfl
  · rcases t.find false dest with e | ⟨_ | ⟨newName, newParent⟩, m⟩ | ⟨newParent, newName⟩
    · rfl
    · rfl
    · simp only [Except.map, Target.timeless, sameFile_timeless, mayChange_timeless,
        Node.isDir_timeless, Node.grants_timeless, Node.entries_timeless, List.isEmpty_map,
        move_timeless]
      split_ifs <;> rfl
    · simp only [Except.map, Target.timeless, mayChange_timeless, Node.isDir_timeless,
        Node.grants_timeless, move_timeless]
      split_ifs <;> rfl
  · rfl

end Changing

end FileTree

end LineShell

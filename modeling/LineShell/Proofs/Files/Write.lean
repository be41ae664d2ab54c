import LineShell.Proofs.Files.Walk

/-! What a write leaves in a tree: the file at the path holds the bytes, and nothing else is
different. The path leads to that file afterwards, so that the bytes are read back. -/

namespace LineShell.FileTree

open Text (Bytes)

/-- What a path leads to depends on the directories alone. -/
theorem find_congr (t t' : FileTree) (h : t'.root = t.root) {follow : Bool} {p : Place}
    {target : Target} (hp : t.find follow p = .ok target) : t'.find follow p = .ok target := by
  rw [find_eq_ok_iff] at hp ⊢
  rwa [h]

theorem find_changeFile {t : FileTree} {follow : Bool} {p : Place} {target : Target}
    (hp : t.find follow p = .ok target) (id : Nat) (f : FileData → FileData) :
    (t.changeFile id f).find follow p = .ok target :=
  find_congr t (t.changeFile id f) rfl hp

theorem find_grown {t t' : FileTree} (hw : t.root.Within t'.root) {follow : Bool} {p : Place}
    {l : Location} {n : Node} (hp : t.find follow p = .ok (.entry l n)) :
    ∃ n', n.Alike n' ∧ t'.find follow p = .ok (.entry l n') := by
  obtain ⟨hname, hleads⟩ := (find_eq_ok_iff t follow p _).mp hp
  obtain ⟨n', ha, hleads'⟩ := hleads.within hw
  exact ⟨n', ha, (find_eq_ok_iff t' follow p _).mpr ⟨hname, hleads'⟩⟩

theorem node_grown {t t' : FileTree} (hw : t.root.Within t'.root) {follow : Bool} {p : Place}
    {n : Node} (hp : t.node follow p = .ok n) (hdir : n.isDir = false) :
    t'.node follow p = .ok n := by
  obtain ⟨l, hl⟩ := (node_eq_ok_iff t follow p n).mp hp
  obtain ⟨n', ha, hn'⟩ := find_grown hw hl
  exact (node_eq_ok_iff t' follow p n).mpr ⟨l, ha.eq hdir ▸ hn'⟩

theorem isDir_grown {t t' : FileTree} (hw : t.root.Within t'.root) {p : Place}
    (h : t.isDir p = true) : t'.isDir p = true := by
  rw [isDir, Option.any_eq_true] at h ⊢
  obtain ⟨n, hn, hdir⟩ := h
  cases hnode : t.node true p with
  | error e => rw [hnode] at hn; cases hn
  | ok n' =>
    rw [hnode] at hn
    cases hn
    obtain ⟨l, hl⟩ := (node_eq_ok_iff _ _ _ _).mp hnode
    obtain ⟨m, ha, hm⟩ := find_grown hw hl
    exact ⟨m, by rw [(node_eq_ok_iff _ _ _ _).mpr ⟨l, hm⟩]; rfl, ha.isDir ▸ hdir⟩

/-- What has come to a free name is found there. -/
theorem find_filled {t t' : FileTree} (hw : t.root.Within t'.root) {follow : Bool} {p : Place}
    {parent : Location} {name : Name} {m : Node} (hp : t.find follow p = .ok (.vacant parent name))
    (hm : t'.root.at? (name :: parent) = some m) (hlink : m.isLink = true → follow = false) :
    t'.find follow p = .ok (.entry (name :: parent) m) := by
  obtain ⟨hname, hleads⟩ := (find_eq_ok_iff t follow p _).mp hp
  exact (find_eq_ok_iff t' follow p _).mpr ⟨hname, (hleads.within_vacant hw).2 m hm hlink⟩

/-- The tree with a new file at a free name holds all that was there, and the file. -/
theorem newFile_within {t : FileTree} {parent : Location} {name : Name}
    (hp : Target.Holds t.root (.vacant parent name)) (data : FileData) :
    t.root.Within (t.newFile parent name data).1.root :=
  Node.Within.put hp.2.2 _

theorem newFile_at? {t : FileTree} {parent : Location} {name : Name}
    (hp : Target.Holds t.root (.vacant parent name)) (data : FileData) (x : Location) :
    (t.newFile parent name data).1.root.at? (x ++ name :: parent) =
      (Node.file t.files.length).at? x := by
  obtain ⟨⟨d, hd, hdir, -⟩, -, -⟩ := hp
  exact Node.at?_put hd hdir name _ x

/-- A file as opening makes it. -/
def emptyFile (now : Time) : FileData :=
  { bytes := [], mode := newFileMode, changed := now }

/-- The ways in which a file is opened for writing: it is there, a device is there, or there is a
free name for it. -/
theorem openForWriting_cases {t t' : FileTree} {now : Time} {p : Place} {new : Option Nat}
    (h : t.openForWriting now p = .ok (t', new)) :
    (∃ l id, t.find true p = .ok (.entry l (.file id)) ∧ t.grants .write (.file id) = true ∧
      t' = t ∧ new = some id) ∨
    (∃ l n, t.find true p = .ok (.entry l n) ∧ (∀ id, n ≠ .file id) ∧ n.isDir = false ∧
      t' = t ∧ new = none) ∨
    (∃ parent name, t.find true p = .ok (.vacant parent name) ∧ t.mayChange parent = true ∧
      t' = (t.newFile parent name (emptyFile now)).1 ∧
      new = some t.files.length) := by
  rw [openForWriting] at h
  split at h
  case h_1 => cases h
  case h_2 parent name hp =>
    split at h
    case isTrue hmay =>
      cases h
      exact .inr (.inr ⟨parent, name, hp, hmay, rfl, rfl⟩)
    case isFalse => cases h
  case h_3 l n hp =>
    split_ifs at h with hdir hgrant
    split at h
    case h_1 id =>
      cases h
      exact .inl ⟨l, id, hp, by simpa using hgrant, rfl, rfl⟩
    case h_2 hfile =>
      cases h
      exact .inr (.inl ⟨l, n, hp, fun id hid => hfile id hid, by simpa using hdir, rfl, rfl⟩)

theorem openForWriting_of_find {t : FileTree} {p : Place} {l : Location} {id : Nat}
    (hp : t.find true p = .ok (.entry l (.file id))) (hwrite : t.grants .write (.file id) = true)
    (now : Time) : t.openForWriting now p = .ok (t, some id) := by
  simp [openForWriting, hp, hwrite, Node.isDir]

/-- A path at which a text can be kept: a file is there that may be read and written, or else a
free name in a directory that takes new entries. -/
def CanHold (t : FileTree) (p : Place) : Prop :=
  (∃ l id, t.find true p = .ok (.entry l (.file id)) ∧ t.grants .read (.file id) = true ∧
    t.grants .write (.file id) = true) ∨
  ∃ parent name, t.find true p = .ok (.vacant parent name) ∧ t.mayChange parent = true

/-- The file at a location holds just these bytes, and nothing else differs from the tree before:
not what is at any other location, and not what any other file holds. -/
structure Rewritten (t t' : FileTree) (l : Location) (id : Nat) (bytes : Bytes) : Prop where
  entry : t'.root.at? l = some (.file id)
  held : (t'.files[id]?).map FileData.bytes = some bytes
  entries : ∀ k, k ≠ l → Node.AgreeAt t.root t'.root k
  files : ∀ k, k ≠ id → t'.files[k]? = t.files[k]?

theorem files_changeFile (t : FileTree) (id : Nat) (f : FileData → FileData) (k : Nat) :
    (t.changeFile id f).files[k]? = if id = k then (t.files[k]?).map f else t.files[k]? := by
  rw [changeFile, List.getElem?_modify]
  split <;> simp

theorem exists_of_grants {t : FileTree} {access : Access} {id : Nat}
    (h : t.grants access (.file id) = true) :
    ∃ f, t.files[id]? = some f ∧ access.granted f.mode = true := by
  simpa [grants, Option.any_eq_true] using h

theorem grants_file {t : FileTree} {access : Access} {id : Nat} {f : FileData}
    (hf : t.files[id]? = some f) : t.grants access (.file id) = access.granted f.mode := by
  simp [grants, hf]

private theorem rewritten_entry {t : FileTree} {p : Place} {l : Location} {id : Nat}
    (hp : t.find true p = .ok (.entry l (.file id))) {f : FileData} (hf : t.files[id]? = some f)
    (now : Time) (bytes : Bytes) :
    Rewritten t (t.changeFile id fun f => { f with bytes, changed := now }) l id bytes where
  entry := find_holds hp
  held := by simp [files_changeFile, hf]
  entries := fun k _ => .of_eq rfl
  files := fun k hk => by rw [files_changeFile, if_neg (Ne.symm hk)]

private theorem rewritten_vacant {t : FileTree} {parent : Location} {name : Name}
    (hp : Target.Holds t.root (.vacant parent name)) (data : FileData) (now : Time)
    (bytes : Bytes) :
    Rewritten t ((t.newFile parent name data).1.changeFile t.files.length
      fun f => { f with bytes, changed := now }) (name :: parent) t.files.length bytes where
  entry := newFile_at? hp data []
  held := by simp [files_changeFile, newFile, changeDir]
  entries := by
    intro k hk
    by_cases hbelow : (name :: parent) <:+ k
    · obtain ⟨x, rfl⟩ := hbelow
      have hx : x ≠ [] := fun hx => hk (by rw [hx, List.nil_append])
      refine .of_eq ?_
      rw [Node.at?_below_none hp.2.2]
      refine Eq.trans ?_ (newFile_at? hp data x).symm
      cases x using List.reverseRecOn with
      | nil => exact absurd rfl hx
      | append_singleton x k _ => simp [Node.at?_append, Node.at?_singleton, Node.entry?,
          Node.entries]
    · exact Node.at?_put_elsewhere hbelow t.root _
  files := by
    intro k hk
    rw [files_changeFile, if_neg (Ne.symm hk), newFile]
    by_cases hlt : k < t.files.length
    · simp [changeDir, List.getElem?_append_left hlt]
    · have hafter : t.files.length < k := by omega
      rw [List.getElem?_eq_none (Nat.le_of_not_lt hlt), List.getElem?_eq_none]
      exact List.length_append.trans_le hafter

/-- Writing to a path that can hold a text leaves a tree that is rewritten at what the path then
leads to, and that may be read there. -/
theorem overwrite_rewritten {t : FileTree} {p : Place} (h : t.CanHold p) (now : Time)
    (bytes : Bytes) :
    ∃ t' l id, t.overwrite now p bytes = .ok t' ∧ Rewritten t t' l id bytes ∧
      t'.find true p = .ok (.entry l (.file id)) ∧ t'.grants .read (.file id) = true := by
  obtain ⟨l, id, hp, hread, hwrite⟩ | ⟨parent, name, hp, hmay⟩ := h
  · obtain ⟨f, hf, hmode⟩ := exists_of_grants hread
    refine ⟨_, l, id, ?_, rewritten_entry hp hf now bytes, ?_, ?_⟩
    · rw [overwrite, changeAt, openForWriting_of_find hp hwrite]
    · exact find_changeFile hp _ _
    · rw [grants_file (f := { f with bytes, changed := now }) (by simp [files_changeFile, hf])]
      exact hmode
  · have hfree := find_holds hp
    refine ⟨_, _, _, ?_, rewritten_vacant hfree (emptyFile now) now bytes, ?_, ?_⟩
    · simp only [overwrite, changeAt, openForWriting, hp, if_pos hmay]
      rfl
    · have hnew := find_filled (newFile_within hfree (emptyFile now)) hp
        (newFile_at? hfree _ []) (by simp [Node.isLink])
      exact find_changeFile hnew _ _
    · rw [grants_file (f := { bytes, mode := newFileMode, changed := now })
        (by simp [files_changeFile, newFile, changeDir, emptyFile])]
      change Access.granted newFileMode .read = true
      decide

theorem isFile_of_find {t : FileTree} {p : Place} {l : Location} {id : Nat}
    (h : t.find true p = .ok (.entry l (.file id))) : t.isFile p = true := by
  simp [isFile, node, h, Except.toOption]

theorem isThere_of_isFile {t : FileTree} {p : Place} (h : t.isFile p = true) :
    t.isThere p = true := by
  rw [isFile, Option.any_eq_true] at h
  obtain ⟨n, hn, -⟩ := h
  rw [isThere, hn]
  rfl

/-- A file that is found and may be read gives its bytes. -/
theorem Rewritten.read {t t' : FileTree} {l : Location} {id : Nat} {bytes : Bytes}
    (h : Rewritten t t' l id bytes) {p : Place} (hp : t'.find true p = .ok (.entry l (.file id)))
    (hread : t'.grants .read (.file id) = true) : t'.read p = .ok bytes := by
  obtain ⟨f, hf, rfl⟩ := Option.map_eq_some_iff.mp h.held
  simp [FileTree.read, node, hp, hread, hf]

/-- A root directory with one file `f` of some mode in it. -/
def single (mode : Nat) : FileTree :=
  { root := .dir 0o755 0 [(Name.ofText ['f'], .file 0)],
    files := [{ bytes := Text.encode ['o', 'l', 'd'], mode, changed := 0 }] }

theorem single_find (mode : Nat) (follow : Bool) :
    (single mode).find follow (['/', 'f'] : Path) =
      .ok (.entry [Name.ofText ['f']] (.file 0)) := by
  have hf : FromRoot ['/', 'f'] (Name.ofText ['f']) := by decide
  rw [find_fromRoot (by decide) (single mode) rfl hf rfl]
  rfl

theorem single_node (mode : Nat) :
    (single mode).node true (['/', 'f'] : Path) = .ok (.file 0) :=
  (node_eq_ok_iff _ _ _ _).mpr ⟨_, single_find mode true⟩

end LineShell.FileTree

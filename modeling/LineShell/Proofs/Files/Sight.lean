import LineShell.Proofs.Files.Raise

/-! What is to be seen at the locations of a tree. Two trees in which the same is seen everywhere
have the same directories, files and links, whatever order the entries are in; what each step of a
copying changes is told by the locations at which something else is seen afterwards. -/

namespace LineShell

/-- What is to be seen at a location: a directory with its permissions, a file with all that belongs
to it, a link, or a device. -/
inductive Sight where
  | dir (mode : Nat)
  | file (data : Option FileData)
  | link (target : Path) (changed : Time)
  | sink
  deriving DecidableEq, Repr

namespace Sight

def isDir : Sight → Bool
  | dir _ => true
  | _ => false

def isFile : Sight → Bool
  | file _ => true
  | _ => false

/-- Whether what is seen grants a permission. -/
def grants (access : Access) : Sight → Bool
  | dir mode => access.granted mode
  | file data => data.any fun f => access.granted f.mode
  | _ => true

end Sight

namespace FileTree

open Node (Grown)

/-- What a node is seen as. -/
def sight (t : FileTree) : Node → Sight
  | .dir mode _ _ => .dir mode
  | .file id => .file t.files[id]?
  | .link target changed => .link target changed
  | .sink => .sink

/-- What is to be seen at a location. -/
def look (t : FileTree) (l : Location) : Option Sight :=
  (t.root.at? l).map t.sight

/-- A tree in which every directory has each of its names once, and every file is kept. -/
structure Proper (t : FileTree) : Prop where
  named : t.root.Named
  stored : ∀ l id, t.root.at? l = some (.file id) → id < t.files.length

/-- A file has one name only. -/
def Sole (t : FileTree) (l : Location) (id : Nat) : Prop :=
  ∀ k, t.root.at? k = some (.file id) → k = l

/-- A tree that has come of another one. All that was there is there, and what files are new are
new everywhere. -/
structure Grows (t t' : FileTree) : Prop where
  within : t.root.Within t'.root
  fresh : ∀ l id, t'.root.at? l = some (.file id) →
    t.root.at? l = some (.file id) ∨ t.files.length ≤ id
  longer : t.files.length ≤ t'.files.length

variable {t t' t'' : FileTree} {now : Time} {l : Location} {n m : Node} {s : Sight}

section Sight

theorem sight_grants (t : FileTree) (access : Access) (n : Node) :
    (t.sight n).grants access = t.grants access n := by
  cases n <;> rfl

theorem sight_grants_of_isDir (t : FileTree) (access : Access) (h : n.isDir = true) :
    (t.sight n).grants access = n.grants access := by
  cases n <;> first | rfl | cases h

theorem sight_isDir (t : FileTree) (n : Node) : (t.sight n).isDir = n.isDir := by
  cases n <;> rfl

theorem sight_of_alike (h : n.Alike m) : t.sight n = t.sight m := by
  cases n <;> cases m <;> simp_all [Node.Alike, sight]

theorem look_of_at? (h : t.root.at? l = some n) : t.look l = some (t.sight n) := by
  rw [look, h]
  rfl

theorem look_eq_none_iff : t.look l = none ↔ t.root.at? l = none :=
  Option.map_eq_none_iff

theorem at?_of_look (h : t.look l = some s) : ∃ n, t.root.at? l = some n ∧ t.sight n = s :=
  Option.map_eq_some_iff.mp h

end Sight

section Grows

theorem Grows.refl (t : FileTree) : Grows t t where
  within := .refl t.root
  fresh := fun _ _ h => .inl h
  longer := Nat.le_refl _

theorem Grows.trans (h : Grows t t') (h' : Grows t' t'') : Grows t t'' where
  within := h.within.trans h'.within
  fresh := by
    intro l id hid
    rcases h'.fresh l id hid with hid | hid
    · exact h.fresh l id hid
    · exact .inr (h.longer.trans hid)
  longer := h.longer.trans h'.longer

/-- A file with one name gets no other one. -/
theorem Sole.grows {id : Nat} (h : Sole t l id) (hgrows : Grows t t')
    (hid : id < t.files.length) : Sole t' l id := by
  intro k hk
  rcases hgrows.fresh k id hk with hold | hnew
  · exact h k hold
  · omega

end Grows

section Raised

/-- New directories are seen where nothing was on the way to them, and nothing else is. -/
theorem Raised.look (h : Raised now l t t') (hthere : t'.root.at? l ≠ none) (k : Location) :
    t'.look k = if k <:+ l then (t.look k).or (some (.dir newDirMode)) else t.look k := by
  have hsight (n : Node) : t'.sight n = t.sight n := by cases n <;> simp [sight, h.files]
  cases hk : t.root.at? k with
  | some n =>
    obtain ⟨n', hn', ha⟩ := h.grown.within k n hk
    rw [look_of_at? hk, look_of_at? hn', hsight, sight_of_alike ha]
    simp
  | none =>
    rw [look_eq_none_iff.mpr hk]
    split
    case isTrue hsuffix =>
      have hk' : t'.root.at? k ≠ none := by
        intro hnone
        obtain ⟨x, rfl⟩ := hsuffix
        exact hthere (Node.at?_below_none hnone x)
      obtain ⟨n, hn⟩ := Option.ne_none_iff_exists'.mp hk'
      rcases h.old_or_new hn with ⟨m, hm, -⟩ | ⟨-, -, ha⟩
      · rw [hk] at hm
        cases hm
      · rw [look_of_at? hn, ← sight_of_alike ha]
        rfl
    case isFalse hsuffix =>
      rw [look_eq_none_iff]
      by_contra hsome
      obtain ⟨n, hn⟩ := Option.ne_none_iff_exists'.mp hsome
      rcases h.old_or_new hn with ⟨m, hm, -⟩ | ⟨-, hsuffix', -⟩
      · rw [hk] at hm
        cases hm
      · exact hsuffix hsuffix'

theorem Raised.file_old (h : Raised now l t t') {k : Location} {id : Nat}
    (hid : t'.root.at? k = some (.file id)) : t.root.at? k = some (.file id) := by
  rcases h.old_or_new hid with ⟨m, hm, ha⟩ | ⟨-, -, ha⟩
  · rwa [ha.symm.eq rfl]
  · cases ha

theorem Raised.grows (h : Raised now l t t') : Grows t t' where
  within := h.grown.within
  fresh := fun _ _ hid => .inl (h.file_old hid)
  longer := h.files ▸ Nat.le_refl _

theorem Raised.proper (h : Raised now l t t') (hproper : Proper t) : Proper t' where
  named := h.grown.named hproper.named
  stored := fun l id hid => h.files ▸ hproper.stored l id (h.file_old hid)

end Raised

/-- A tree in which the file `id` stands ready at one location to be written to, and in which all
else is as it was. -/
structure Opened (t t' : FileTree) (l : Location) (id : Nat) : Prop where
  grows : Grows t t'
  proper : Proper t'
  here : t'.root.at? l = some (.file id)
  sole : Sole t' l id
  files : ∀ k, k ≠ id → k < t.files.length → t'.files[k]? = t.files[k]?
  elsewhere : ∀ k, k ≠ l → t'.look k = t.look k

section Opened

variable {p : Place} {name : Name} {parent : Location} {id : Nat}

theorem openForWriting_file (hproper : Proper t)
    (hfind : t.find true p = .ok (.entry l (.file id)))
    (hwrite : t.grants .write (.file id) = true) (hsole : Sole t l id) (now : Time) :
    t.openForWriting now p = .ok (t, some id) ∧ Opened t t l id :=
  ⟨openForWriting_of_find hfind hwrite now, .refl t, hproper, find_holds hfind, hsole,
    fun _ _ _ => rfl, fun _ _ => rfl⟩

section NewFile

variable (hfree : Target.Holds t.root (.vacant parent name)) (data : FileData)

include hfree

/-- What is at another location than the new file is as it was. -/
theorem newFile_agree {k : Location} (hk : k ≠ name :: parent) :
    t.root.AgreeAt (t.newFile parent name data).1.root k := by
  by_cases hbelow : (name :: parent) <:+ k
  · obtain ⟨x, rfl⟩ := hbelow
    refine .of_eq ?_
    rw [newFile_at? hfree, Node.at?_below_none hfree.2.2, Node.at?_of_leaf rfl]
    rintro rfl
    exact hk rfl
  · exact Node.at?_put_elsewhere hbelow _ _

/-- The files of the tree are the old ones, and the new one at its location. -/
theorem newFile_cases {k : Location} {i : Nat}
    (hid : (t.newFile parent name data).1.root.at? k = some (.file i)) :
    t.root.at? k = some (.file i) ∨ k = name :: parent ∧ i = t.files.length := by
  by_cases hk : k = name :: parent
  · subst hk
    have hhere := newFile_at? hfree data []
    rw [List.nil_append, hid] at hhere
    cases hhere
    exact .inr ⟨rfl, rfl⟩
  · obtain ⟨m, hm, ha⟩ := (newFile_agree hfree data hk).symm.alike hid
    exact .inl (by rwa [ha.eq rfl])

theorem newFile_opened (hproper : Proper t) :
    Opened t (t.newFile parent name data).1 (name :: parent) t.files.length := by
  have hlength : (t.newFile parent name data).1.files.length = t.files.length + 1 := by
    simp [newFile, changeDir]
  have hfiles (k : Nat) (hk : k < t.files.length) :
      (t.newFile parent name data).1.files[k]? = t.files[k]? := by
    simp [newFile, changeDir, List.getElem?_append_left hk]
  refine ⟨⟨newFile_within hfree data, fun k i hi => ?_, by omega⟩,
    ⟨hproper.named.put hfree rfl, fun k i hi => ?_⟩, newFile_at? hfree data [],
    fun k hk => ?_, fun k _ hk => hfiles k hk, fun k hk => ?_⟩
  · refine (newFile_cases hfree data hi).imp_right ?_
    rintro ⟨-, rfl⟩
    exact Nat.le_refl _
  · rcases newFile_cases hfree data hi with hi | ⟨-, rfl⟩
    · have := hproper.stored k i hi
      omega
    · omega
  · rcases newFile_cases hfree data hk with hk | ⟨hk, -⟩
    · exact absurd (hproper.stored k _ hk) (Nat.lt_irrefl _)
    · exact hk
  · have hagree := newFile_agree hfree data hk
    cases hn : t.root.at? k with
    | none =>
      rw [Node.AgreeAt, hn] at hagree
      rw [look_eq_none_iff.mpr hn, look_eq_none_iff]
      generalize (t.newFile parent name data).1.root.at? k = found at hagree
      cases hagree
      rfl
    | some n =>
      obtain ⟨n', hn', ha⟩ := hagree.alike hn
      rw [look_of_at? hn, look_of_at? hn', ← sight_of_alike ha]
      cases n with
      | file i => simp [sight, hfiles i (hproper.stored k i hn)]
      | _ => rfl

end NewFile

theorem openForWriting_vacant (hproper : Proper t)
    (hfind : t.find true p = .ok (.vacant parent name)) (hmay : t.mayChange parent = true)
    (now : Time) : ∃ t', t.openForWriting now p = .ok (t', some t.files.length) ∧
      Opened t t' (name :: parent) t.files.length := by
  refine ⟨(t.newFile parent name (emptyFile now)).1, ?_,
    newFile_opened (find_holds hfind) (emptyFile now) hproper⟩
  rw [openForWriting, hfind]
  simp only [hmay, if_true]
  rfl

theorem Grows.changeFile (h : Grows t t') (id : Nat) (f : FileData → FileData) :
    Grows t (t'.changeFile id f) where
  within := h.within
  fresh := h.fresh
  longer := by simpa [FileTree.changeFile] using h.longer

theorem Proper.changeFile (h : Proper t) (id : Nat) (f : FileData → FileData) :
    Proper (t.changeFile id f) where
  named := h.named
  stored := fun l i hi => by simpa [FileTree.changeFile] using h.stored l i hi

theorem look_changeFile (hhere : t.root.at? l = some (.file id)) (hsole : Sole t l id)
    (f : FileData → FileData) (k : Location) : (t.changeFile id f).look k =
      if k = l then some (.file (t.files[id]?.map f)) else t.look k := by
  have hroot : (t.changeFile id f).root.at? k = t.root.at? k := rfl
  split
  case isTrue hk =>
    subst hk
    rw [look_of_at? (hroot.trans hhere), sight, files_changeFile, if_pos rfl]
  case isFalse hk =>
    cases hn : t.root.at? k with
    | none => rw [look_eq_none_iff.mpr hn, look_eq_none_iff, hroot, hn]
    | some n =>
      rw [look_of_at? hn, look_of_at? (hroot.trans hn)]
      cases n with
      | file i =>
        have hne : id ≠ i := by
          rintro rfl
          exact hk (hsole k hn)
        rw [sight, sight, files_changeFile, if_neg hne]
      | _ => rfl

/-- A file is copied to one that stands ready. Its copy is seen there, and nothing else changes. -/
theorem copyFile_of_opened {q : Place} {a b : Location} {new : Nat} (hproper : Proper t)
    (hsource : t.find true p = .ok (.entry a (.file id)))
    (hread : t.grants .read (.file id) = true)
    (hopen : t.openForWriting now q = .ok (t', some new)) (hopened : Opened t t' b new)
    (hne : id ≠ new) :
    ∃ t'', t.copyFile now p q = .ok t'' ∧ Grows t t'' ∧ Proper t'' ∧ ∀ k, t''.look k =
      if k = b then some (.file (t.files[id]?.map fun f => { f with changed := now }))
      else t.look k := by
  have hstored := hproper.stored a id (find_holds hsource)
  obtain ⟨data, hdata⟩ : ∃ data, t.files[id]? = some data :=
    ⟨_, List.getElem?_eq_getElem hstored⟩
  obtain ⟨old, hold⟩ : ∃ old, t'.files[new]? = some old :=
    ⟨_, List.getElem?_eq_getElem (hopened.proper.stored b new hopened.here)⟩
  let emptied := t'.changeFile new fun f => { f with bytes := [], changed := now }
  have hnode : t.node true p = .ok (.file id) := (node_eq_ok_iff _ _ _ _).mpr ⟨a, hsource⟩
  have hleft : emptied.files[id]? = some data := by
    rw [files_changeFile, if_neg (Ne.symm hne), hopened.files id hne hstored, hdata]
  refine ⟨emptied.changeFile new fun f => { f with bytes := data.bytes, mode := data.mode }, ?_,
    (hopened.grows.changeFile _ _).changeFile _ _, (hopened.proper.changeFile _ _).changeFile _ _,
    fun k => ?_⟩
  · simp only [copyFile, hnode, hread, hopen, Bool.not_true, Bool.false_eq_true, if_false]
    rw [show (t'.changeFile new fun f => { f with bytes := [], changed := now }).files[id]? =
      some data from hleft]
  · rw [look_changeFile (show emptied.root.at? b = _ from hopened.here) hopened.sole,
      look_changeFile hopened.here hopened.sole, files_changeFile, if_pos rfl, hold, hdata]
    split
    case isTrue => rfl
    case isFalse hk => exact hopened.elsewhere k hk

end Opened

end FileTree

end LineShell

import LineShell.Proofs.Files.Write

/-! Copies told by the numbers of the files they go between. What a file holds after a run of
copies is traced back to one file before the run, or to none where a file was copied onto itself. -/

namespace LineShell.FileTree

open Text (Bytes)

/-- What a file holds. -/
def held (t : FileTree) (id : Nat) : Bytes :=
  t.files[id]?.elim [] FileData.bytes

/-- A copy that was made: the file that it was made of, and the one that it went to. A device takes
the bytes, and there is no file then. -/
structure Copied where
  source : Nat
  dest : Option Nat
  deriving DecidableEq, Repr

/-- The file whose contents a file has after a copy. One that was copied onto itself was emptied
before it was read. -/
def Copied.origin (c : Copied) (id : Nat) : Option Nat :=
  if c.dest = some id then (if c.source = id then none else some c.source) else some id

/-- The file whose contents a file has after copies, the first of them first. -/
def origin : List Copied → Nat → Option Nat
  | [], id => some id
  | c :: log, id => (origin log id).bind c.origin

/-- What a file holds after copies, by what the files held before. -/
def arrived (t : FileTree) (log : List Copied) (id : Nat) : Bytes :=
  (origin log id).elim [] t.held

theorem origin_append (xs ys : List Copied) (id : Nat) :
    origin (xs ++ ys) id = (origin ys id).bind (origin xs) := by
  induction xs with
  | nil => cases h : origin ys id <;> simp [h, origin]
  | cons c xs ih => rw [List.cons_append, origin, ih, Option.bind_assoc]; rfl

theorem origin_untouched {log : List Copied} {id : Nat} (h : ∀ c ∈ log, c.dest ≠ some id) :
    origin log id = some id := by
  induction log with
  | nil => rfl
  | cons c log ih =>
    rw [origin, ih fun d hd => h d (by simp [hd]), Option.bind_some, Copied.origin,
      if_neg (h c (by simp))]

/-- A file that nothing is copied to keeps what it holds. -/
theorem arrived_untouched {t : FileTree} {log : List Copied} {id : Nat}
    (h : ∀ c ∈ log, c.dest ≠ some id) : t.arrived log id = t.held id := by
  rw [arrived, origin_untouched h]
  rfl

/-- A file that is made a copy of one file only, which is copied to by none, holds what that file
held. -/
theorem arrived_copied {t : FileTree} {log : List Copied} {c : Copied} {b : Nat} (hc : c ∈ log)
    (hb : c.dest = some b) (hone : ∀ d ∈ log, d.dest = some b → d.source = c.source)
    (hkept : ∀ d ∈ log, d.dest ≠ some c.source) : t.arrived log b = t.held c.source := by
  have horigin : origin log b = some c.source := by
    induction log generalizing c with
    | nil => cases hc
    | cons d log ih =>
      rw [origin]
      by_cases hlater : ∃ e ∈ log, e.dest = some b
      · obtain ⟨e, he, heb⟩ := hlater
        have hsource : e.source = c.source := hone e (List.mem_cons_of_mem d he) heb
        rw [ih he heb (fun x hx hxb => hsource ▸ hone x (List.mem_cons_of_mem d hx) hxb)
          (fun x hx => hsource ▸ hkept x (List.mem_cons_of_mem d hx)), Option.bind_some,
          Copied.origin, hsource, if_neg (hkept d (by simp))]
      · have hcd : c = d := (List.mem_cons.mp hc).resolve_right fun hmem => hlater ⟨c, hmem, hb⟩
        subst hcd
        have hne : c.source ≠ b := by
          rintro rfl
          exact hkept c (by simp) hb
        rw [origin_untouched fun x hx hxb => hlater ⟨x, hx, hxb⟩, Option.bind_some, Copied.origin,
          if_pos hb, if_neg hne]
  rw [arrived, horigin]
  rfl

/-- What a run that makes new entries and copies leaves of a tree. All that was there is there,
and what could be read can be read. -/
structure Ran (t t' : FileTree) (log : List Copied) : Prop where
  within : t.root.Within t'.root
  held : ∀ id, t'.held id = t.arrived log id
  readable : ∀ id, t.grants .read (.file id) = true → t'.grants .read (.file id) = true

theorem Ran.refl (t : FileTree) : Ran t t [] where
  within := .refl t.root
  held := fun _ => rfl
  readable := fun _ h => h

theorem Ran.trans {t t' t'' : FileTree} {xs ys : List Copied} (h : Ran t t' xs)
    (h' : Ran t' t'' ys) : Ran t t'' (xs ++ ys) where
  within := h.within.trans h'.within
  held := by
    intro id
    rw [h'.held, arrived, arrived, origin_append]
    cases origin ys id with
    | none => rfl
    | some j => exact h.held j
  readable := fun id hid => h'.readable id (h.readable id hid)

/-- A path leads to the file of a number, or else to a device. -/
def Lands (t : FileTree) (p : Place) (new : Option Nat) : Prop :=
  ∃ l, t.find true p = .ok (.entry l (new.elim Node.sink Node.file))

theorem Lands.grown {t t' : FileTree} {p : Place} {new : Option Nat} (h : t.Lands p new)
    (hw : t.root.Within t'.root) : t'.Lands p new := by
  obtain ⟨l, hl⟩ := h
  obtain ⟨n, ha, hn⟩ := find_grown hw hl
  refine ⟨l, ?_⟩
  rwa [ha.eq (by cases new <;> rfl)]

theorem Lands.read {t : FileTree} {p : Place} {new : Option Nat} (h : t.Lands p new)
    (hread : ∀ id, new = some id → t.grants .read (.file id) = true) :
    t.read p = .ok (new.elim [] t.held) := by
  obtain ⟨l, hl⟩ := h
  cases new with
  | none => simp [FileTree.read, node, hl, grants, Node.grants]
  | some id => simp [FileTree.read, node, hl, hread id rfl, held]

private theorem held_newFile (t : FileTree) (parent : Location) (name : Name) (now : Time)
    (id : Nat) : (t.newFile parent name (emptyFile now)).1.held id = t.held id := by
  simp only [held, newFile, changeDir]
  by_cases hlt : id < t.files.length
  · rw [List.getElem?_append_left hlt]
  · rw [List.getElem?_append_right (by omega), List.getElem?_eq_none (l := t.files) (by omega)]
    cases id - t.files.length <;> rfl

/-- A file that is opened for writing is there, and nothing is copied yet. -/
theorem openForWriting_ran {t t' : FileTree} {now : Time} {p : Place} {new : Option Nat}
    (h : t.openForWriting now p = .ok (t', new)) :
    Ran t t' [] ∧ t'.Lands p new ∧ ∀ id, new = some id → ∃ f, t'.files[id]? = some f := by
  obtain ⟨l, id, hp, hgrant, rfl, rfl⟩ | ⟨l, n, hp, hfile, hdir, rfl, rfl⟩ |
    ⟨parent, name, hp, -, rfl, rfl⟩ := openForWriting_cases h
  · obtain ⟨f, hf, -⟩ := exists_of_grants hgrant
    refine ⟨.refl _, ⟨l, hp⟩, ?_⟩
    rintro _ ⟨⟩
    exact ⟨f, hf⟩
  · refine ⟨.refl _, ⟨l, ?_⟩, by rintro _ ⟨⟩⟩
    have hlink := isLink_of_find hp
    cases n with
    | sink => exact hp
    | file id => exact absurd rfl (hfile id)
    | link p changed => cases hlink
    | dir mode changed es => cases hdir
  · have hfree := find_holds hp
    refine ⟨⟨newFile_within hfree _, held_newFile t parent name now, ?_⟩,
      ⟨_, find_filled (newFile_within hfree _) hp (newFile_at? hfree _ []) (by simp [Node.isLink])⟩,
      ?_⟩
    · intro id hid
      obtain ⟨f, hf, hmode⟩ := exists_of_grants hid
      rw [grants_file (f := f)]
      · exact hmode
      · have hlt := (List.getElem?_eq_some_iff.mp hf).1
        simpa [newFile, changeDir, List.getElem?_append_left hlt] using hf
    · rintro _ ⟨⟩
      exact ⟨emptyFile now, by simp [newFile, changeDir]⟩

/-- The copy that `copyFile` makes, if it makes one. -/
def copied? (t : FileTree) (now : Time) (source dest : Place) : Option Copied :=
  match t.node true source, t.openForWriting now dest with
  | .ok (.file a), .ok (_, b) => some { source := a, dest := b }
  | _, _ => none

/-- The tree with the file `b` emptied, as it is before anything is read. -/
private def emptied (t : FileTree) (now : Time) (b : Nat) : FileTree :=
  t.changeFile b fun f => { f with bytes := [], changed := now }

/-- The tree after the file `b` has been made like `data`. -/
private def filled (t : FileTree) (now : Time) (b : Nat) (data : FileData) : FileTree :=
  (t.emptied now b).changeFile b fun f => { f with bytes := data.bytes, mode := data.mode }

section Filled

variable {t : FileTree} {a b : Nat} {data f : FileData} {now : Time}
  (ha : (t.emptied now b).files[a]? = some data) (hb : t.files[b]? = some f)
  (hread : t.grants .read (.file a) = true)

include ha hb

private theorem held_filled (id : Nat) :
    (t.filled now b data).held id = t.arrived [{ source := a, dest := some b }] id := by
  rw [emptied, files_changeFile] at ha
  simp only [FileTree.held, arrived, origin, Copied.origin, filled, emptied, files_changeFile,
    Option.bind_some]
  by_cases hid : b = id
  · subst hid
    by_cases hab : a = b
    · subst hab
      rw [if_pos rfl, hb] at ha
      cases ha
      simp [hb]
    · rw [if_neg (Ne.symm hab)] at ha
      simp [hb, hab, ha, FileTree.held]
  · simp [hid, FileTree.held]

include hread

private theorem grants_filled : (t.filled now b data).grants .read (.file b) = true := by
  obtain ⟨g, hg, hmode⟩ := exists_of_grants hread
  have hdata : Access.read.granted data.mode = true := by
    rw [emptied, files_changeFile, hg] at ha
    split at ha <;> cases ha <;> exact hmode
  rw [grants_file (f := { f with bytes := data.bytes, mode := data.mode, changed := now })
    (by simp [filled, emptied, files_changeFile, hb])]
  exact hdata

/-- A file becomes like another one, or empty if it is that file itself. -/
private theorem ran_filled : Ran t (t.filled now b data) [{ source := a, dest := some b }] where
  within := .refl t.root
  held := held_filled ha hb
  readable := by
    intro id hid
    by_cases hb' : b = id
    · exact hb' ▸ grants_filled ha hb hread
    · obtain ⟨k, hk, hmode⟩ := exists_of_grants hid
      rw [grants_file (f := k) (by simp [filled, emptied, files_changeFile, hb', hk])]
      exact hmode

end Filled

/-- A copy of a file is a run of one copy. Its path leads to what was copied to, which can be
read. -/
theorem copyFile_ran {t t' : FileTree} {now : Time} {source dest : Place}
    (h : t.copyFile now source dest = .ok t') :
    ∃ c, t.copied? now source dest = some c ∧ t.node true source = .ok (.file c.source) ∧
      Ran t t' [c] ∧ t'.Lands dest c.dest ∧
      ∀ b, c.dest = some b → t'.grants .read (.file b) = true := by
  rw [copyFile] at h
  split at h
  case h_1 => cases h
  case h_2 n hn =>
    split_ifs at h with hgrant
    have hread : t.grants .read n = true := by simpa using hgrant
    split at h
    case h_2 => cases h
    case h_1 a =>
      split at h
      case h_1 => cases h
      case h_2 t₁ hopen =>
        cases h
        obtain ⟨hran, hlands, -⟩ := openForWriting_ran hopen
        refine ⟨{ source := a, dest := none }, by simp [copied?, hn, hopen], hn,
          ⟨hran.within, fun id => ?_, hran.readable⟩, hlands, by rintro _ ⟨⟩⟩
        rw [hran.held]
        simp [arrived, origin, Copied.origin]
      case h_3 t₁ b hopen =>
        obtain ⟨hran, hlands, hthere⟩ := openForWriting_ran hopen
        obtain ⟨f, hf⟩ := hthere b rfl
        have hread₁ := hran.readable a hread
        dsimp only at h
        split at h
        case h_1 hdata =>
          change (t₁.emptied now b).files[a]? = none at hdata
          obtain ⟨g, hg, -⟩ := exists_of_grants hread₁
          rw [emptied, files_changeFile, hg] at hdata
          split at hdata <;> cases hdata
        case h_2 data hdata =>
          change (t₁.emptied now b).files[a]? = some data at hdata
          cases h
          refine ⟨{ source := a, dest := some b }, by simp [copied?, hn, hopen], hn,
            hran.trans (ran_filled hdata hf hread₁), hlands.grown (.refl t₁.root), ?_⟩
          rintro _ ⟨⟩
          exact grants_filled hdata hf hread₁

theorem createDir_ran {t t' : FileTree} {now : Time} {p : Place} (h : t.createDir now p = .ok t') :
    Ran t t' [] := by
  rw [createDir] at h
  split at h
  case h_1 | h_2 => cases h
  case h_3 parent name hp =>
    split at h
    case isFalse => cases h
    case isTrue =>
      cases h
      exact ⟨Node.Within.put (find_holds hp).2.2 _, fun _ => rfl, fun _ hid => hid⟩

theorem createEach_ran (t : FileTree) (now : Time) (places : List Place) :
    Ran t (t.createEach now places).1 [] := by
  induction places generalizing t with
  | nil => exact .refl t
  | cons p below ih =>
    rw [createEach]
    split
    case h_1 t' h => exact (createDir_ran h).trans (ih t')
    case h_2 =>
      split
      case isTrue => exact ih t
      case isFalse => exact .refl t

theorem createDirs_ran (t : FileTree) (now : Time) (missing places : List Place) :
    Ran t (t.createDirs now missing places).1 [] := by
  induction places generalizing missing with
  | nil => exact createEach_ran t now missing
  | cons p above ih =>
    rw [createDirs]
    split
    case h_1 t' h => exact (createDir_ran h).trans (createEach_ran t' now missing)
    case h_2 =>
      split_ifs
      · exact ih (p :: missing)
      · exact createEach_ran t now missing
      · exact .refl t

/-- New directories leave all files as they are. -/
theorem createDirAll_ran (t : FileTree) (now : Time) (p : Place) :
    Ran t (t.createDirAll now p).1 [] :=
  createDirs_ran t now [] _

end LineShell.FileTree

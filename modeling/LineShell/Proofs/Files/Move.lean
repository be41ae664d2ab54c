import LineShell.Proofs.Files.Walk

/-! Moves in a tree, told by the locations that they take something from and put it to. What is at
a location after a run of moves is traced back through them to where it was before. -/

namespace LineShell.FileTree

/-- What was at the origin is at the place, with all that is below it. -/
structure Relocation where
  origin : Location
  place : Location

namespace Relocation

/-- Where that was before which is at a location afterwards. At the origin nothing is left, unless
it lies below the place. -/
def before (r : Relocation) (l : Location) : Option Location :=
  if r.place <:+ l then some (l.take (l.length - r.place.length) ++ r.origin)
  else if r.origin <:+ l then none
  else some l

/-- Where that was before some relocations, the first of them first, which is at a location after
the last one. -/
def beforeAll : List Relocation → Location → Option Location
  | [], l => some l
  | r :: later, l => (beforeAll later l).bind r.before

theorem before_place (r : Relocation) (x : Location) :
    r.before (x ++ r.place) = some (x ++ r.origin) := by
  rw [before, if_pos (List.suffix_append x r.place)]
  simp

theorem before_origin {r : Relocation} {l : Location} (hplace : ¬ r.place <:+ l)
    (horigin : r.origin <:+ l) : r.before l = none := by
  rw [before, if_neg hplace, if_pos horigin]

theorem before_elsewhere {r : Relocation} {l : Location} (hplace : ¬ r.place <:+ l)
    (horigin : ¬ r.origin <:+ l) : r.before l = some l := by
  rw [before, if_neg hplace, if_neg horigin]

theorem beforeAll_append (log later : List Relocation) (l : Location) :
    beforeAll (log ++ later) l = (beforeAll later l).bind (beforeAll log) := by
  induction log with
  | nil => simp [beforeAll]
  | cons r log ih => rw [List.cons_append, beforeAll, ih, Option.bind_assoc]; rfl

/-- A location apart from all that is moved and from where it goes is what it was. -/
theorem beforeAll_apart {log : List Relocation} {base : Location}
    (h : ∀ r ∈ log, Node.Apart r.origin base ∧ Node.Apart r.place base) (x : Location) :
    beforeAll log (x ++ base) = some (x ++ base) := by
  have hnot {a : Location} (ha : Node.Apart a base) : ¬ a <:+ x ++ base := fun hbelow =>
    (List.suffix_or_suffix_of_suffix hbelow (List.suffix_append x base)).elim ha.1 ha.2
  induction log with
  | nil => rfl
  | cons r log ih =>
    obtain ⟨horigin, hplace⟩ := h r (by simp)
    rw [beforeAll, ih fun r' hr' => h r' (by simp [hr']), Option.bind_some,
      before_elsewhere (hnot hplace) (hnot horigin)]

/-- A later relocation takes nothing at, above or below what an earlier one took or put, and puts
nothing at, above or below what that put. -/
structure Spared (earlier later : Relocation) : Prop where
  origin : Node.Apart earlier.origin later.origin
  taken : Node.Apart earlier.place later.origin
  replaced : Node.Apart earlier.place later.place

/-- Where relocations spare one another, each brings what was at its origin before the first. -/
theorem beforeAll_place {log : List Relocation} (h : log.Pairwise Spared) {r : Relocation}
    (hr : r ∈ log) (x : Location) : beforeAll log (x ++ r.place) = some (x ++ r.origin) := by
  obtain ⟨earlier, later, rfl⟩ := List.append_of_mem hr
  obtain ⟨-, hlater, hearlier⟩ := List.pairwise_append.mp h
  have hspared := (List.pairwise_cons.mp hlater).1
  have hafter : beforeAll later (x ++ r.place) = some (x ++ r.place) :=
    beforeAll_apart (fun r' hr' => ⟨(hspared r' hr').taken.symm, (hspared r' hr').replaced.symm⟩) x
  have hbefore : beforeAll earlier (x ++ r.origin) = some (x ++ r.origin) :=
    beforeAll_apart (fun r' hr' => have hspared' := hearlier r' hr' r (by simp)
      ⟨hspared'.origin, hspared'.taken⟩) x
  rw [beforeAll_append, beforeAll, hafter, Option.bind_some, before_place, Option.bind_some,
    hbefore]

end Relocation

/-- What is at a location after some relocations, as it was in the tree before them. -/
def traced (t : FileTree) (log : List Relocation) (l : Location) : Option Node :=
  (Relocation.beforeAll log l).bind t.root.at?

/-- A tree that the relocations have left: every location holds what it is traced back to, but for
the entries of directories, which have locations of their own, and no file has changed. -/
structure Relocated (t t' : FileTree) (log : List Relocation) : Prop where
  files : t'.files = t.files
  entries : ∀ l, Option.Rel Node.Alike (t.traced log l) (t'.root.at? l)

theorem Relocated.refl (t : FileTree) : Relocated t t [] :=
  ⟨rfl, fun _ => Node.rel_of_eq rfl⟩

theorem Relocated.trans {t t₁ t₂ : FileTree} {log later : List Relocation}
    (h : Relocated t t₁ log) (h' : Relocated t₁ t₂ later) : Relocated t t₂ (log ++ later) where
  files := h'.files.trans h.files
  entries := by
    intro l
    refine Node.rel_trans ?_ (h'.entries l)
    rw [traced, traced, Relocation.beforeAll_append]
    cases Relocation.beforeAll later l with
    | none => exact .none
    | some l => exact h.entries l

/-- What is taken out of one directory and put into another is relocated. -/
theorem move_relocated {t : FileTree} {parent newParent : Location} {name newName : Name}
    {n d : Node} (hn : t.root.at? (name :: parent) = some n)
    (hd : t.root.at? newParent = some d) (hdir : d.isDir = true)
    (hinto : ¬ (name :: parent) <:+ newParent) :
    Relocated t (t.move parent name n newParent newName)
      [⟨name :: parent, newName :: newParent⟩] where
  files := rfl
  entries := by
    obtain ⟨d₁, hd₁, ha⟩ := (Node.at?_erase_elsewhere hinto t.root).alike hd
    intro l
    change Option.Rel _ (Option.bind (Relocation.before _ l) _) _
    by_cases hplace : newName :: newParent <:+ l
    · obtain ⟨x, rfl⟩ := hplace
      refine Node.rel_of_eq (Eq.trans ?_ (Node.at?_put hd₁ (ha.isDir ▸ hdir) newName n x).symm)
      rw [Relocation.before_place ⟨name :: parent, newName :: newParent⟩, Option.bind_some,
        Node.at?_append, hn, Option.bind_some]
    · have hput := Node.at?_put_elsewhere hplace (t.root.changeAt (·.erase name) parent) n
      by_cases horigin : name :: parent <:+ l
      · rw [Relocation.before_origin hplace horigin]
        obtain ⟨x, rfl⟩ := horigin
        rw [Node.AgreeAt, Node.at?_erase] at hput
        exact hput
      · rw [Relocation.before_elsewhere hplace horigin]
        exact Node.rel_trans (Node.at?_erase_elsewhere horigin t.root) hput

/-- What a rename takes to where. Two paths of one place, or of one file, leave all as it is. -/
def relocated? (t : FileTree) (source dest : Place) : Option Relocation :=
  match t.find false source, t.find false dest with
  | .ok (.entry origin _), .ok (.vacant parent name) => some ⟨origin, name :: parent⟩
  | .ok (.entry origin n), .ok (.entry place m) =>
    if origin = place || sameFile n m then none else some ⟨origin, place⟩
  | _, _ => none

theorem rename_relocated {t t' : FileTree} {source dest : Place}
    (h : t.rename source dest = .ok t') :
    Relocated t t' (t.relocated? source dest).toList := by
  rw [rename] at h
  split at h
  case h_1 | h_2 | h_3 => cases h
  case h_4 name parent n hsource =>
    split at h
    case h_1 | h_2 => cases h
    case h_3 newParent newName hdest =>
      split_ifs at h with hinto
      cases h
      obtain ⟨⟨d, hd, hdir, -⟩, -⟩ := find_holds hdest
      rw [relocated?, hsource, hdest]
      exact move_relocated (find_holds hsource) hd hdir (by simpa using hinto)
    case h_4 newName newParent m hdest =>
      rw [relocated?, hsource, hdest]
      split_ifs at h with hsame hinto
      · cases h
        simp only [hsame, if_true]
        exact .refl t
      · cases h
        have hm := find_holds hdest
        rw [Target.Holds, Node.at?_cons, Option.bind_eq_some_iff] at hm
        obtain ⟨d, hd, hentry⟩ := hm
        simp only [hsame, Bool.false_eq_true, if_false]
        exact move_relocated (find_holds hsource) hd (Node.isDir_of_entry? hentry)
          (by simpa using hinto)

end LineShell.FileTree

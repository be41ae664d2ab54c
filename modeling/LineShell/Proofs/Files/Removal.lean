import LineShell.Proofs.Files.Grown

/-! What a removal leaves of a tree: the removed thing is gone with all that is in it, and all else
is in its place. A path that has lost what it named leads to no entry, and none of the removals that
follow gives it one. -/

namespace LineShell

namespace Node

variable {root n m d : Node} {l k : Location} {f : Node → Node}

/-- A change at a location is seen neither beside it nor above it, but for what the directories
above hold. -/
theorem at?_changeAt_agree (f : Node → Node) (hk : ¬ l <:+ k) (root : Node) :
    AgreeAt root (root.changeAt f l) k := by
  by_cases habove : k <:+ l
  · obtain ⟨x, rfl⟩ := habove
    have hx : x ≠ [] := by
      rintro rfl
      exact hk (List.suffix_refl k)
    rw [AgreeAt, at?_changeAt_above]
    cases root.at? k with
    | none => exact .none
    | some d => exact .some (changeAt_alike f hx d)
  · exact .of_eq (at?_changeAt_apart f ⟨hk, habove⟩ root).symm

/-- A tree in which less is left of a node holds less. -/
theorem Within.changeAt (h : ∀ n, root.at? l = some n → (f n).Within n) :
    (root.changeAt f l).Within root := by
  intro k m hm
  by_cases hk : l <:+ k
  · obtain ⟨x, rfl⟩ := hk
    rw [at?_changeAt_below] at hm
    obtain ⟨n, hn, hm⟩ := Option.bind_eq_some_iff.mp hm
    rw [at?_append, hn]
    exact h n hn x m hm
  · exact (at?_changeAt_agree f hk root).symm.alike hm

theorem Named.below (h : root.Named) (hn : root.at? l = some n) : n.Named := by
  intro x m hm
  refine h (x ++ l) m ?_
  rw [at?_append, hn]
  exact hm

/-- What holds of the names in each directory of a tree holds of them after a change, if it does in
what the change brings: above it the names stay, and beside it all does. -/
theorem forall_names_changeAt {P : List Name → Prop}
    (h : ∀ k n, root.at? k = some n → P (n.entries.map Prod.fst))
    (hf : ∀ n, root.at? l = some n → ∀ x m, (f n).at? x = some m → P (m.entries.map Prod.fst)) :
    ∀ k m, (root.changeAt f l).at? k = some m → P (m.entries.map Prod.fst) := by
  intro k m hm
  by_cases hk : l <:+ k
  · obtain ⟨x, rfl⟩ := hk
    rw [at?_changeAt_below] at hm
    obtain ⟨n, hn, hm⟩ := Option.bind_eq_some_iff.mp hm
    exact hf n hn x m hm
  · by_cases habove : k <:+ l
    · obtain ⟨x, rfl⟩ := habove
      have hx : x ≠ [] := by
        rintro rfl
        exact hk (List.suffix_refl k)
      rw [at?_changeAt_above] at hm
      obtain ⟨d, hd, rfl⟩ := Option.map_eq_some_iff.mp hm
      rw [names_changeAt f hx]
      exact h k d hd
    · rw [at?_changeAt_apart f ⟨hk, habove⟩] at hm
      exact h k m hm

theorem Named.changeAt (h : root.Named) (hf : ∀ n, root.at? l = some n → (f n).Named) :
    (root.changeAt f l).Named :=
  forall_names_changeAt h hf

/-- What can be left of a node when entries are removed from the first one on, each with its own
entries first. -/
inductive Pruned : Node → Node → Prop where
  | refl (n : Node) : Pruned n n
  | first {mode : Nat} {changed : Time} {name : Name} {n m : Node} {es : List (Name × Node)}
    (h : Pruned n m) :
    Pruned (.dir mode changed ((name, n) :: es)) (.dir mode changed ((name, m) :: es))
  | drop {mode : Nat} {changed : Time} {e : Name × Node} {es left : List (Name × Node)}
    (h : Pruned (.dir mode changed es) (.dir mode changed left)) :
    Pruned (.dir mode changed (e :: es)) (.dir mode changed left)

mutual

theorem pruned_cleared : ∀ n : Node, Pruned n n.cleared.1
  | .dir mode changed es => by
    rw [cleared]
    split
    · exact .refl _
    · exact pruned_clearedEntries mode changed _ _ es
  | .file id | .link p changed | .sink => .refl _

theorem pruned_clearedEntries (mode : Nat) (changed : Time) (mayChange maySearch : Bool) :
    ∀ es : List (Name × Node), Pruned (.dir mode changed es)
      (.dir mode changed (clearedEntries mayChange maySearch es).1)
  | [] => .refl _
  | (name, n) :: rest => by
    have hn := pruned_cleared n
    rw [clearedEntries]
    split
    · exact .refl _
    · cases hcleared : n.cleared with
      | mk m e =>
        rw [hcleared] at hn
        cases e with
        | some e => exact .first hn
        | none =>
          dsimp only
          split
          · exact .drop (pruned_clearedEntries mode changed mayChange maySearch rest)
          · exact .first hn

end

theorem Pruned.alike (h : Pruned n m) : n.Alike m := by
  cases h with
  | refl => rfl
  | first | drop => exact rfl

section Entries

variable {mode : Nat} {changed : Time} {e : Name × Node} {es left : List (Name × Node)}

theorem Within.dir (h : ∀ a m, List.lookup a left = some m →
      ∃ n, List.lookup a es = some n ∧ m.Within n) :
    (Node.dir mode changed left).Within (Node.dir mode changed es) := by
  intro l k hk
  cases l using List.reverseRecOn with
  | nil =>
    cases hk
    exact ⟨_, rfl, rfl⟩
  | append_singleton l a _ =>
    rw [at?_append, at?_singleton] at hk ⊢
    obtain ⟨m, hm, hk⟩ := Option.bind_eq_some_iff.mp hk
    obtain ⟨n, hn, hw⟩ := h a m hm
    rw [Node.entry?, entries, hn]
    exact hw l k hk

theorem Named.of_mem (h : (Node.dir mode changed es).Named) (he : e ∈ es) : e.2.Named :=
  h.below ((h.mem_entries_iff (l := []) rfl).mp he)

theorem Named.rest (h : (Node.dir mode changed (e :: es)).Named) :
    (Node.dir mode changed es).Named :=
  .dir (List.nodup_cons.mp (h [] _ rfl)).2 fun _ he => h.of_mem (List.mem_cons_of_mem e he)

theorem Named.rest_within (h : (Node.dir mode changed (e :: es)).Named) :
    (Node.dir mode changed es).Within (Node.dir mode changed (e :: es)) := by
  refine .dir fun a m hm => ⟨m, ?_, .refl m⟩
  have hmem : (a, m) ∈ es := mem_of_entry? (d := .dir mode changed es) hm
  exact entry?_of_mem (h [] _ rfl) (List.mem_cons_of_mem e hmem)

end Entries

/-- All that is left was there, and names stand once in it as they did. -/
theorem Pruned.within_and_named (h : Pruned n m) (hnamed : n.Named) : m.Within n ∧ m.Named := by
  induction h with
  | refl n => exact ⟨.refl n, hnamed⟩
  | @first mode changed name n m es _ ih =>
    obtain ⟨hw, hm⟩ := ih (hnamed.of_mem List.mem_cons_self)
    refine ⟨.dir fun a k hk => ?_, .dir (hnamed [] _ rfl) fun e he => ?_⟩
    · rw [List.lookup_cons] at hk ⊢
      cases ha : a == name with
      | true =>
        rw [ha] at hk
        cases hk
        exact ⟨n, rfl, hw⟩
      | false =>
        rw [ha] at hk
        exact ⟨k, hk, .refl k⟩
    · rcases List.mem_cons.mp he with rfl | he
      · exact hm
      · exact hnamed.of_mem (List.mem_cons_of_mem _ he)
  | drop _ ih =>
    obtain ⟨hw, hm⟩ := ih hnamed.rest
    exact ⟨hw.trans hnamed.rest_within, hm⟩

theorem Named.erase (h : n.Named) (name : Name) : (n.erase name).Named := by
  cases n with
  | dir mode changed es =>
    refine .dir ((h [] _ rfl).sublist (List.filter_sublist.map Prod.fst)) fun e he => ?_
    exact h.of_mem (List.mem_of_mem_filter he)
  | _ => exact h

end Node

namespace FileTree

variable {t t' t'' : FileTree} {follow : Bool} {p : Place} {l : Location} {n : Node}

/-- Where a walk comes to an end, if there is anything. -/
def arrival : Except Errno Target → Except Errno Location
  | .ok (.entry l _) => .ok l
  | .ok (.vacant ..) => .error .noEntry
  | .error e => .error e

/-- In a tree that holds less a walk comes to the same end, or it misses something. -/
theorem arrival_walk_within (hw : t'.root.Within t.root) {links : Nat} {trail trail' : Trail}
    {todo : List (Component Name)} (hr : trail.Real t.root) (hr' : trail'.Real t'.root)
    (hsame : trail.location = trail'.location) :
    arrival (t'.walk follow links trail' todo) = .error .noEntry ∨
      arrival (t'.walk follow links trail' todo) = arrival (t.walk follow links trail todo) := by
  have hstanding {trail trail' : Trail} (hr : trail.Real t.root) (hr' : trail'.Real t'.root)
      (hsame : trail.location = trail'.location) :
      (t.standing trail).isDir = (t'.standing trail').isDir ∧
        (t.standing trail).grants .search = (t'.standing trail').grants .search := by
    obtain ⟨k, hk, halike⟩ := hw _ _ hr'.at?_location
    rw [← hsame, hr.at?_location] at hk
    cases hk
    exact ⟨halike.isDir.symm, (halike.grants .search).symm⟩
  have hentry {trail trail' : Trail} {name : Name} {m : Node} (hr : trail.Real t.root)
      (hr' : trail'.Real t'.root) (hsame : trail.location = trail'.location)
      (hm : Node.entry? (t'.standing trail') name = some m) :
      ∃ k, Node.entry? (t.standing trail) name = some k ∧ m.Alike k := by
    obtain ⟨k, hk, halike⟩ := hw _ m ((hr'.at?_cons name).trans hm)
    exact ⟨k, by rw [← hr.at?_cons, hsame, hk], halike⟩
  fun_induction walk t' follow links trail' todo generalizing trail
  case case1 => exact .inr (by simp [walk, arrival, hsame])
  case case2 step _ _ hdir =>
    obtain ⟨hd, -⟩ := hstanding hr hr' hsame
    cases step <;> rw [walk, hd, if_pos hdir] <;> exact .inr rfl
  case case3 step _ _ hdir hstay =>
    obtain ⟨hd, -⟩ := hstanding hr hr' hsame
    obtain ⟨rfl, -⟩ := id hstay
    rw [walk, hd, if_neg hdir, if_pos hstay]
    exact .inr (congrArg Except.ok hsame.symm)
  case case4 step _ _ hdir hstay hsearch =>
    obtain ⟨hd, hs⟩ := hstanding hr hr' hsame
    cases step <;> rw [walk, hd, hs, if_neg hdir, if_neg hstay, if_pos hsearch] <;> exact .inr rfl
  case case5 hdir hsearch hstay ih =>
    obtain ⟨hd, hs⟩ := hstanding hr hr' hsame
    rw [walk, hd, hs, if_neg hdir, if_neg hstay, if_neg hsearch]
    exact ih trivial trivial rfl
  case case6 hdir hsearch hstay ih =>
    obtain ⟨hd, hs⟩ := hstanding hr hr' hsame
    rw [walk, hd, hs, if_neg hdir, if_neg hstay, if_neg hsearch]
    exact ih hr hr' hsame
  case case7 hdir hsearch hstay ih =>
    obtain ⟨hd, hs⟩ := hstanding hr hr' hsame
    rw [walk, hd, hs, if_neg hdir, if_neg hstay, if_neg hsearch]
    exact ih hr.tail hr'.tail (by rw [Trail.location_tail, Trail.location_tail, hsame])
  case case8 hdir hsearch name hsize hstay =>
    obtain ⟨hd, hs⟩ := hstanding hr hr' hsame
    rw [walk, hd, hs, if_neg hdir, if_neg hstay, if_neg hsearch, if_pos hsize]
    exact .inr rfl
  case case9 | case10 => exact .inl rfl
  case case11 hdir hsearch name hsize target changed hname hend hstay =>
    obtain ⟨hd, hs⟩ := hstanding hr hr' hsame
    obtain ⟨k, hk, rfl⟩ := hentry hr hr' hsame hname
    rw [walk, hd, hs, if_neg hdir, if_neg hstay, if_neg hsearch, if_neg hsize, hk]
    simp only [hend, if_true, arrival, hsame, or_true]
  case case12 hdir hsearch name hsize target changed hname hend hstay =>
    obtain ⟨hd, hs⟩ := hstanding hr hr' hsame
    obtain ⟨k, hk, rfl⟩ := hentry hr hr' hsame hname
    rw [walk, hd, hs, if_neg hdir, if_neg hstay, if_neg hsearch, if_neg hsize, hk]
    simp only [hend]
    exact .inr rfl
  case case13 hdir hsearch name hsize target changed hname hend links hstay ih =>
    obtain ⟨hd, hs⟩ := hstanding hr hr' hsame
    obtain ⟨k, hk, rfl⟩ := hentry hr hr' hsame hname
    rw [walk, hd, hs, if_neg hdir, if_neg hstay, if_neg hsearch, if_neg hsize, hk]
    simp only [hend]
    exact ih hr hr' hsame
  case case14 hdir hsearch name hsize m hlink hname hstay ih =>
    obtain ⟨hd, hs⟩ := hstanding hr hr' hsame
    obtain ⟨k, hk, halike⟩ := hentry hr hr' hsame hname
    rw [walk, hd, hs, if_neg hdir, if_neg hstay, if_neg hsearch, if_neg hsize, hk]
    have hnext := @ih ((name, k) :: trail) ⟨(hr.at?_cons name).trans hk, hr⟩
      ⟨(hr'.at?_cons name).trans hname, hr'⟩ (congrArg (name :: ·) hsame)
    cases k with
    | link target changed => exact absurd (halike.symm.eq rfl).symm (hlink target changed)
    | _ => exact hnext

theorem arrival_within (hw : t'.root.Within t.root) (links : Nat) (todo : List (Component Name)) :
    arrival (t'.walk follow links [] todo) = .error .noEntry ∨
      arrival (t'.walk follow links [] todo) = arrival (t.walk follow links [] todo) :=
  arrival_walk_within hw trivial trivial rfl

theorem arrival_eq_ok_iff {r : Except Errno Target} :
    arrival r = .ok l ↔ ∃ n, r = .ok (.entry l n) := by
  cases r with
  | error e => simp [arrival]
  | ok target => cases target <;> simp [arrival]

theorem node_missing_iff : t.node follow p = .error (.os .noEntry) ↔
    p.path.contains (Char.ofNat 0) = false ∧ (p.size = 0 ∨ Nameable p ∧
      arrival (t.walk follow linkLimit [] p.walked) = .error .noEntry) := by
  rw [node, find, Nameable]
  generalize p.path.contains (Char.ofNat 0) = nul
  split_ifs with hnul hzero hlong
  · simp [hnul]
  · simp [hnul, hzero]
  · simp [hzero, Nat.not_lt.mpr hlong, Errno.nameTooLong, Errno.noEntry]
  · cases t.walk follow linkLimit [] p.walked with
    | error e => simp [hnul, hzero, Nat.lt_of_not_ge hlong, arrival]
    | ok target => cases target <;> simp [hnul, hzero, Nat.lt_of_not_ge hlong, arrival]

/-- A path at which nothing is names nothing in a tree that holds less. -/
theorem node_missing_within (hw : t'.root.Within t.root)
    (h : t.node follow p = .error (.os .noEntry)) : t'.node follow p = .error (.os .noEntry) := by
  rw [node_missing_iff] at h ⊢
  refine ⟨h.1, h.2.imp_right fun ⟨hname, hmissing⟩ => ⟨hname, ?_⟩⟩
  exact (arrival_within hw linkLimit p.walked).elim id (·.trans hmissing)

/-- A path names nothing any more in a tree that has lost what it named. -/
theorem node_missing_of_gone (hw : t'.root.Within t.root)
    (hp : t.find follow p = .ok (.entry l n)) (hgone : t'.root.at? l = none) :
    t'.node follow p = .error (.os .noEntry) := by
  obtain ⟨hname, hleads⟩ := (find_eq_ok_iff t follow p _).mp hp
  have hwalk := (walk_eq_ok_iff t follow linkLimit p.walked _).mpr hleads
  refine node_missing_iff.mpr ⟨hname.1, .inr ⟨hname, ?_⟩⟩
  refine (arrival_within hw linkLimit p.walked).resolve_right fun h => ?_
  rw [hwalk] at h
  obtain ⟨m, hm⟩ := arrival_eq_ok_iff.mp h
  have hhere := ((walk_eq_ok_iff t' follow linkLimit p.walked _).mp hm).holds
  rw [show t'.root.at? l = some m from hhere] at hgone
  cases hgone

/-- A tree after something was removed from it, of what the locations that may be gone hold. All
else is in its place, and the files hold what they held. -/
structure Removed (gone : Location → Prop) (t t' : FileTree) : Prop where
  files : t'.files = t.files
  within : t'.root.Within t.root
  named : t'.root.Named
  kept : ∀ l n, t.root.at? l = some n → ¬ gone l → ∃ n', t'.root.at? l = some n' ∧ n.Alike n'

namespace Removed

variable {gone gone' : Location → Prop}

theorem refl (hnamed : t.root.Named) : Removed gone t t :=
  ⟨rfl, .refl t.root, hnamed, fun _ n hn _ => ⟨n, hn, .refl n⟩⟩

theorem trans (h : Removed gone t t') (h' : Removed gone t' t'') : Removed gone t t'' where
  files := h'.files.trans h.files
  within := h'.within.trans h.within
  named := h'.named
  kept := by
    intro l n hn hl
    obtain ⟨n₁, hn₁, h₁⟩ := h.kept l n hn hl
    obtain ⟨n₂, hn₂, h₂⟩ := h'.kept l n₁ hn₁ hl
    exact ⟨n₂, hn₂, h₁.trans h₂⟩

theorem mono (h : Removed gone t t')
    (hgone : ∀ l n, t.root.at? l = some n → gone l → gone' l) : Removed gone' t t' :=
  { h with kept := fun l n hn hl => h.kept l n hn fun hold => hl (hgone l n hn hold) }

/-- A path that leads to something still there led to it before. -/
theorem find_before (h : Removed gone t t') (hp : t'.find follow p = .ok (.entry l n)) :
    ∃ n', n.Alike n' ∧ t.find follow p = .ok (.entry l n') :=
  find_grown h.within hp

theorem changeAt {f : Node → Node} (hnamed : t.root.Named)
    (hf : ∀ n, t.root.at? l = some n → (f n).Within n ∧ (f n).Named) :
    Removed (l <:+ ·) t (t.changeDir l f) where
  files := rfl
  within := .changeAt fun n hn => (hf n hn).1
  named := hnamed.changeAt fun n hn => (hf n hn).2
  kept := fun _ _ hn hl => (Node.at?_changeAt_agree f hl t.root).alike hn

theorem erase (hnamed : t.root.Named) (parent : Location) (name : Name) :
    Removed ((name :: parent) <:+ ·) t (t.changeDir parent (·.erase name)) where
  files := rfl
  within := .erase t.root parent name
  named := hnamed.changeAt fun _ hn => (hnamed.below hn).erase name
  kept := fun _ _ hn hl => (Node.at?_erase_elsewhere hl t.root).alike hn

end Removed

theorem removable_eq_ok {parent : Location} {name : Name}
    (h : t.removable p = .ok (parent, name, n)) :
    t.find false p = .ok (.entry (name :: parent) n) := by
  rw [removable] at h
  split at h
  case h_4 hp =>
    split_ifs at h
    cases h
    exact hp
  all_goals cases h

theorem removable_missing (h : t.removable p = .error (.os .noEntry)) :
    t.node false p = .error (.os .noEntry) := by
  rw [removable] at h
  rw [node]
  split at h
  case h_1 hp => cases h; rw [hp]
  case h_2 hp => rw [hp]
  case h_3 => cases h
  case h_4 => split_ifs at h; cases h

/-- What is removed was named by the path, and is gone. -/
theorem unlink_removed (hnamed : t.root.Named) (h : t.unlink p = .ok t') :
    ∃ l n, t.find false p = .ok (.entry l n) ∧ n.isDir = false ∧
      Removed (· = l) t t' ∧ t'.node false p = .error (.os .noEntry) := by
  rw [unlink] at h
  split at h
  case h_1 => cases h
  case h_2 parent name n hp =>
    split_ifs at h with hdir
    cases h
    have hfind := removable_eq_ok hp
    have herase := Removed.erase hnamed parent name
    refine ⟨name :: parent, n, hfind, by simpa using hdir, herase.mono ?_,
      node_missing_of_gone herase.within hfind (Node.at?_erase t.root parent name [])⟩
    rintro _ m hm ⟨x, rfl⟩
    rw [Node.at?_append, find_holds hfind] at hm
    have hleaf : n.entries = [] := by
      cases n <;> first | rfl | exact absurd rfl hdir
    obtain ⟨rfl, -⟩ := Node.eq_of_at?_leaf hleaf hm
    rfl

theorem removeDir_removed (hnamed : t.root.Named) (h : t.removeDir p = .ok t') :
    ∃ l n, t.find false p = .ok (.entry l n) ∧ Removed (l <:+ ·) t t' ∧
      t'.node false p = .error (.os .noEntry) := by
  rw [removeDir] at h
  split at h
  case h_1 => cases h
  case h_2 parent name n hp =>
    split_ifs at h
    cases h
    have hfind := removable_eq_ok hp
    have herase := Removed.erase hnamed parent name
    exact ⟨name :: parent, n, hfind, herase,
      node_missing_of_gone herase.within hfind (Node.at?_erase t.root parent name [])⟩

theorem removeDir_missing (h : t.removeDir p = .error (.os .noEntry)) :
    t.node false p = .error (.os .noEntry) := by
  rw [removeDir] at h
  split at h
  case h_1 hp => cases h; exact removable_missing hp
  case h_2 => split_ifs at h <;> cases h

/-- What a path stands for when it is to be removed: a directory with all that is in it, if these
are removed at all, or else just what it names. -/
def Taken (t : FileTree) (recursive : Bool) (p : Place) (k : Location) : Prop :=
  ∃ l n, t.find false p = .ok (.entry l n) ∧
    if n.isDir then recursive = true ∧ l <:+ k else k = l

theorem Taken.mono {gone : Location → Prop} {recursive : Bool} {k : Location}
    (h : Removed gone t t') (htaken : t'.Taken recursive p k) : t.Taken recursive p k := by
  obtain ⟨l, n, hfind, hk⟩ := htaken
  obtain ⟨n', halike, hfind'⟩ := h.find_before hfind
  exact ⟨l, n', hfind', halike.isDir ▸ hk⟩

/-- The removal of a directory takes what is in that directory, however far it comes. -/
theorem removeTree_removed (hnamed : t.root.Named) (p : Place) :
    Removed (t.Taken true p) t (t.removeTree p).1 ∧
      ((t.removeTree p).2 = none → (t.removeTree p).1.node false p = .error (.os .noEntry)) := by
  rw [removeTree]
  split
  case h_1 => exact ⟨.refl hnamed, by rintro ⟨⟩⟩
  case h_2 => exact ⟨.refl hnamed, by rintro ⟨⟩⟩
  case h_3 l n hfind =>
    split_ifs with hlink hdir
    · split
      case h_1 t' hunlink =>
        obtain ⟨l', n', hfind', hn', hremoved, hmissing⟩ := unlink_removed hnamed hunlink
        refine ⟨hremoved.mono fun k _ _ hk => ⟨l', n', hfind', ?_⟩, fun _ => hmissing⟩
        rwa [hn']
      case h_2 => exact ⟨.refl hnamed, by rintro ⟨⟩⟩
    · exact ⟨.refl hnamed, by rintro ⟨⟩⟩
    · have hcleared := (Node.pruned_cleared n).within_and_named (hnamed.below (find_holds hfind))
      have hclear : Removed (l <:+ ·) t (t.changeDir l fun _ => n.cleared.1) :=
        .changeAt hnamed fun m hm => by
          rw [show t.root.at? l = some n from find_holds hfind] at hm
          cases hm
          exact hcleared
      have htaken {k : Location} (hk : l <:+ k) : t.Taken true p k :=
        ⟨l, n, hfind, by rw [if_pos (by simpa using hdir)]; exact ⟨rfl, hk⟩⟩
      have hkept := hclear.mono fun _ _ _ => htaken
      dsimp only
      split
      case h_1 => exact ⟨hkept, by rintro ⟨⟩⟩
      case h_2 =>
        split
        case h_1 t' hdirectory =>
          obtain ⟨l', n', hfind', hremoved, hmissing⟩ := removeDir_removed hclear.named hdirectory
          obtain ⟨m, -, hm⟩ := hclear.find_before hfind'
          rw [hfind] at hm
          cases hm
          exact ⟨hkept.trans (hremoved.mono fun _ _ _ => htaken), fun _ => hmissing⟩
        case h_2 e hdirectory =>
          refine ⟨hkept, fun hnone => ?_⟩
          split_ifs at hnone with he
          exact removeDir_missing (he ▸ hdirectory)

end FileTree

end LineShell

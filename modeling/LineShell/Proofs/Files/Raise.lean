import LineShell.Proofs.Files.Entry
import LineShell.Proofs.Files.Grown

/-! Directories that are made with those above them. What is made stands on the way to one place,
and it is made wherever the nearest directory that is there takes it. -/

namespace LineShell.FileTree

open Node (Grown)
open Place (Under)

/-- The location that a path is destined for: it leads to the directory there, or it is a name
behind a path destined for the one above, where nothing is, or nothing that is a link. -/
inductive Destined (t : FileTree) : Place → Location → Prop where
  | found {p : Place} {l : Location} {d : Node} (h : t.find true p = .ok (.entry l d))
    (hdir : d.isDir = true) : Destined t p l
  | under {above p : Place} {l : Location} {a : Name} (h : Destined t above l)
    (hp : Under above a p) (hname : Nameable p → Nameable above)
    (hlink : ∀ m, t.root.at? (a :: l) = some m → m.isLink = false) : Destined t p (a :: l)

/-- A tree with directories made on the way to a location. -/
structure Raised (now : Time) (l : Location) (t t' : FileTree) : Prop where
  grown : Grown (fun k n => k <:+ l ∧ n = emptyDir now) t.root t'.root
  files : t'.files = t.files

/-- Nothing hinders that directories are made on the way to a location: what is there above it are
directories to go through, and the last of them takes new entries. -/
structure Open (t : FileTree) (l : Location) : Prop where
  above : ∀ a k d, a :: k <:+ l → t.root.at? k = some d → d.isDir = true ∧
    d.grants .search = true ∧ (t.root.at? (a :: k) = none → d.grants .write = true)
  names : ∀ a ∈ l, a.size ≤ nameLimit

variable {t t' t'' : FileTree} {now : Time} {p q above : Place} {l l' : Location} {a : Name}
  {d n : Node} {follow : Bool} {target : Target}

section Destined

/-- What a path leads to is at its name in the directory that the path above it leads to. -/
theorem spot_under (habove : ∀ l' n, t.find true above = .ok (.entry l' n) → l' = l)
    (hp : Under above a p) (hname : Nameable p → Nameable above)
    (hlink : ∀ m, t.root.at? (a :: l) = some m → m.isLink = false)
    (hfind : t.find follow p = .ok target) : Target.spot target = a :: l := by
  obtain ⟨hnameable, hleads⟩ := (find_eq_ok_iff t follow p _).mp hfind
  rw [hp.walked, leads_append_iff (by simp)] at hleads
  obtain ⟨k, m, hgoes, hlast⟩ := hleads
  have hstands (hpass : Passable t.root m) : m = l := by
    obtain ⟨d, hd, hdir, -⟩ := hpass
    exact habove m d ((find_eq_ok_iff t true above _).mpr ⟨hname hnameable, hgoes.leads hd hdir⟩)
  cases hlast with
  | vacant hpass _ _ => exact congrArg (a :: ·) (hstands hpass)
  | link hpass _ hat _ | follow hpass _ hat _ _ =>
    obtain rfl := hstands hpass
    cases hlink _ hat
  | enter hpass _ hat _ harrived =>
    obtain rfl := hstands hpass
    cases harrived
    rfl

theorem Destined.spot (h : Destined t p l) (hfind : t.find true p = .ok target) :
    Target.spot target = l := by
  induction h generalizing target with
  | found h _ =>
    rw [h] at hfind
    cases hfind
    rfl
  | under _ hp hname hlink ih => exact spot_under (fun _ _ h => ih h) hp hname hlink hfind

/-- A path is free for nothing but what it is destined for. -/
theorem Destined.vacant {parent : Location} {name : Name} (h : Destined t p l)
    (hfind : t.find false p = .ok (.vacant parent name)) : name :: parent = l := by
  cases h with
  | found h _ =>
    obtain ⟨_, _, h⟩ := find_unfollowed h
    rw [h] at hfind
    cases hfind
  | under h hp hname hlink => exact spot_under (fun _ _ hf => h.spot hf) hp hname hlink hfind

/-- What a path is free for it is destined for. -/
theorem Destined.of_vacant {parent : Location} {name : Name} (hp : Under above a p)
    (hname : Nameable p → Nameable above) (hfind : t.find false p = .ok (.vacant parent name)) :
    Destined t p (name :: parent) := by
  obtain ⟨hnameable, hleads⟩ := (find_eq_ok_iff t false p _).mp hfind
  rw [hp.walked, leads_append_iff (by simp)] at hleads
  obtain ⟨k, m, hgoes, hlast⟩ := hleads
  cases hlast with
  | vacant hpass _ hnone =>
    obtain ⟨d, hd, hdir, -⟩ := hpass
    refine .under (.found ?_ hdir) hp hname (by simp [hnone])
    exact (find_eq_ok_iff t true above _).mpr ⟨hname hnameable, hgoes.leads hd hdir⟩
  | follow _ _ _ hfollow _ => cases hfollow rfl
  | enter _ _ _ _ hrest => cases hrest

/-- It goes on by names from a directory that it leads to. -/
theorem Destined.base (h : Destined t p l) : ∃ q k d r, t.find true q = .ok (.entry k d) ∧
    d.isDir = true ∧ p.walked = q.walked ++ r.reverse.map .name ∧ l = r ++ k ∧
    ∀ x m, x <:+ r → x ≠ [] → t.root.at? (x ++ k) = some m → m.isLink = false := by
  induction h with
  | @found p k d h hdir =>
    exact ⟨p, k, d, [], h, hdir, by simp, rfl, fun x m hx hne => absurd (List.suffix_nil.mp hx) hne⟩
  | @under above p l a _ hp _ hlink ih =>
    obtain ⟨q, k, d, r, hq, hdir, hwalk, rfl, hlinks⟩ := ih
    refine ⟨q, k, d, a :: r, hq, hdir, by simp [hp.walked, hwalk], rfl, ?_⟩
    intro x m hx hne hm
    rcases List.suffix_cons_iff.mp hx with rfl | hx
    · exact hlink m hm
    · exact hlinks x m hx hne hm

theorem Destined.grown {Q : Location → Node → Prop} (h : Destined t p l)
    (hgrown : Grown Q t.root t'.root) (hQ : ∀ k n, Q k n → n.isLink = false) :
    Destined t' p l := by
  induction h with
  | found h hdir =>
    obtain ⟨d', ha, h'⟩ := find_grown hgrown.within h
    exact .found h' (ha.isDir ▸ hdir)
  | under _ hp hname hlink ih =>
    refine .under ih hp hname fun m hm => ?_
    rcases hgrown.old_or_new hm with ⟨k, hk, ha⟩ | ⟨-, k, hk, ha⟩
    · exact ha.isLink ▸ hlink k hk
    · exact ha.isLink ▸ hQ _ _ hk

end Destined

section Raised

theorem Raised.refl (now : Time) (l : Location) (t : FileTree) : Raised now l t t where
  grown := .refl
  files := rfl

theorem Raised.trans (h : Raised now l t t') (h' : Raised now l t' t'') : Raised now l t t'' where
  grown := h.grown.trans h'.grown
  files := h'.files.trans h.files

theorem Raised.mono (h : Raised now l t t') (hl : l <:+ l') : Raised now l' t t' where
  grown := h.grown.mono fun _ _ hk => ⟨hk.1.trans hl, hk.2⟩
  files := h.files

theorem Destined.raised (h : Destined t p l) (hraised : Raised now l' t t') : Destined t' p l :=
  h.grown hraised.grown fun _ _ hn => hn.2 ▸ rfl

/-- What is there in the end was there, or it is an empty directory on the way. -/
theorem Raised.old_or_new (h : Raised now l t t') {k : Location} (hn : t'.root.at? k = some n) :
    (∃ m, t.root.at? k = some m ∧ m.Alike n) ∨
      t.root.at? k = none ∧ k <:+ l ∧ (emptyDir now).Alike n := by
  rcases h.grown.old_or_new hn with hold | ⟨hnone, m, ⟨hk, rfl⟩, ha⟩
  · exact .inl hold
  · exact .inr ⟨hnone, hk, ha⟩

/-- Nothing has come behind the end of the way. -/
theorem Raised.none_behind (h : Raised now l t t') (hnone : t.root.at? (a :: l) = none) :
    t'.root.at? (a :: l) = none := by
  by_contra hsome
  obtain ⟨n, hn⟩ := Option.ne_none_iff_exists'.mp hsome
  rcases h.old_or_new hn with ⟨m, hm, -⟩ | ⟨-, hsuffix, -⟩
  · rw [hnone] at hm
    cases hm
  · exact absurd hsuffix.length_le (by simp)

/-- What has come takes new entries. -/
theorem Raised.grants (h : Raised now l t t') {k : Location} (hnone : t.root.at? k = none)
    (hn : t'.root.at? k = some n) : n.grants .search = true ∧ n.grants .write = true := by
  rcases h.old_or_new hn with ⟨m, hm, -⟩ | ⟨-, -, ha⟩
  · rw [hnone] at hm
    cases hm
  · exact ⟨ha.grants .search ▸ rfl, ha.grants .write ▸ rfl⟩

theorem createDir_raised (h : Destined t p l) (hmade : t.createDir now p = .ok t') :
    Raised now l t t' := by
  obtain ⟨parent, name, hfind, -, rfl⟩ := createDir_eq_ok hmade
  exact ⟨.put .refl (find_holds hfind) rfl ⟨h.vacant hfind ▸ List.suffix_refl _, rfl⟩, rfl⟩

/-- A directory is not made for want of another one only where that is missing on the way. -/
theorem find_of_createDir_noEntry (h : t.createDir now p = .error (.os .noEntry)) :
    t.find false p = .error (.os .noEntry) := by
  rw [createDir] at h
  split at h
  case h_1 e hfind => exact hfind.trans (congrArg _ (Except.error.inj h))
  case h_2 => simp [Errno.alreadyExists, Errno.noEntry] at h
  case h_3 =>
    split at h
    case isTrue => cases h
    case isFalse => simp [Errno.permission, Errno.noEntry] at h

theorem createEach_raised {places : List Place}
    (h : ∀ p ∈ places, ∃ k, Destined t p k ∧ k <:+ l) :
    Raised now l t (t.createEach now places).1 := by
  induction places generalizing t with
  | nil => exact .refl now l t
  | cons p below ih =>
    rw [List.forall_mem_cons] at h
    obtain ⟨⟨k, hk, hkl⟩, hbelow⟩ := h
    rw [createEach]
    split
    case h_1 t' hmade =>
      have hraised := (createDir_raised hk hmade).mono hkl
      exact hraised.trans (ih fun q hq => (hbelow q hq).imp fun _ h => ⟨h.1.raised hraised, h.2⟩)
    case h_2 =>
      split
      case isTrue => exact ih hbelow
      case isFalse => exact .refl now l t

/-- From a path that leads to a directory on, there is nothing to make above. -/
theorem createDirs_of_find (h : t.find true p = .ok (.entry l d)) (hdir : d.isDir = true)
    (missing : List Place) (fuel : Nat) :
    t.createDirs now missing (upFrom fuel p) = t.createEach now missing := by
  have hmade : t.createDir now p = .error (.os .alreadyExists) := by
    obtain ⟨_, _, h⟩ := find_unfollowed h
    rw [createDir, h]
  cases fuel with
  | zero => rfl
  | succ fuel =>
    rw [upFrom]
    cases p.parent? with
    | none => rfl
    | some above =>
      rw [createDirs, hmade]
      simp [isDir_of_find h, hdir, Errno.alreadyExists, Errno.noEntry]

theorem createDirs_raised (h : Destined t p l) (hl : l <:+ l') {missing : List Place}
    (hmissing : ∀ q ∈ missing, ∃ k, Destined t q k ∧ k <:+ l') (fuel : Nat) :
    Raised now l' t (t.createDirs now missing (upFrom fuel p)).1 := by
  induction h generalizing missing fuel with
  | found h hdir =>
    rw [createDirs_of_find h hdir]
    exact createEach_raised hmissing
  | @under above p l a h hp hname hlink ih =>
    have hdest : Destined t p (a :: l) := .under h hp hname hlink
    cases fuel with
    | zero => exact createEach_raised hmissing
    | succ fuel =>
      rw [upFrom, hp.parent]
      simp only
      rw [createDirs]
      split
      case h_1 t' hmade =>
        have hraised := (createDir_raised hdest hmade).mono hl
        refine hraised.trans (createEach_raised fun q hq => ?_)
        exact (hmissing q hq).imp fun _ h => ⟨h.1.raised hraised, h.2⟩
      case h_2 =>
        split_ifs
        · refine ih ((List.suffix_cons a l).trans hl) ?_ fuel
          exact List.forall_mem_cons.mpr ⟨⟨_, hdest, hl⟩, hmissing⟩
        · exact createEach_raised hmissing
        · exact .refl now l' t

theorem createDirAll_raised (h : Destined t p l) : Raised now l t (t.createDirAll now p).1 :=
  createDirs_raised h (List.suffix_refl l) (by simp) _

end Raised

section Made

theorem Open.tail (h : Open t (a :: l)) : Open t l where
  above := fun b k d hk => h.above b k d (hk.trans (List.suffix_cons a l))
  names := fun b hb => h.names b (List.mem_cons_of_mem a hb)

theorem lookedUp_of_at? (hd : t.root.at? l = some d) (hn : t.root.at? (a :: l) = some n) :
    lookedUp l a d.entries = .entry (a :: l) n := by
  have hat : List.lookup a d.entries = some n := by
    rw [← hn, Node.at?_cons, hd]
    rfl
  rw [lookedUp, hat]

theorem lookedUp_of_none (hd : t.root.at? l = some d) (hn : t.root.at? (a :: l) = none) :
    lookedUp l a d.entries = .vacant l a := by
  have hat : List.lookup a d.entries = none := by
    rw [← hn, Node.at?_cons, hd]
    rfl
  rw [lookedUp, hat]

/-- Where the directory is there and nothing hinders, a path leads to what it is destined for. -/
theorem Destined.leads (h : Destined t p l) (hopen : Open t l) (hnameable : Nameable p)
    (hd : t.root.at? l = some d) (hdir : d.isDir = true) :
    t.find true p = .ok (.entry l d) := by
  induction h generalizing d with
  | found h _ =>
    have hd' := find_holds h
    rw [Target.Holds, hd] at hd'
    cases hd'
    exact h
  | @under above p l a _ hp hname hlink ih =>
    obtain ⟨e, he, hedir, -⟩ := Node.exists_above hd
    obtain ⟨-, hsearch, -⟩ := hopen.above a l e (List.suffix_refl _) he
    have habove := ih hopen.tail (hname hnameable) he hedir
    refine (find_under_iff habove hedir hp fun m hm hmlink => ?_).mpr
      ⟨hnameable, hsearch, hopen.names a List.mem_cons_self, (lookedUp_of_at? he hd).symm⟩
    rw [hlink m hm] at hmlink
    cases hmlink

theorem walk_goes (follow : Bool) {links links' : Nat} {cs ds : List (Component Name)}
    (h : Goes t.root links l cs links' l') (hds : ds ≠ []) {trail : Trail}
    (hr : trail.Real t.root) (hl : trail.location = l) :
    ∃ trail' : Trail, trail'.Real t.root ∧ trail'.location = l' ∧
      t.walk follow links trail (cs ++ ds) = t.walk follow links' trail' ds := by
  induction h generalizing trail with
  | done => exact ⟨trail, hr, hl, rfl⟩
  | root hp _ ih =>
    subst hl
    obtain ⟨hdir, hs⟩ := hr.of_passable hp
    obtain ⟨trail', hr', hl', hwalk⟩ := @ih [] trivial rfl
    exact ⟨trail', hr', hl', by rw [← hwalk, List.cons_append, walk]; simp [hdir, hs]⟩
  | here hp _ ih =>
    subst hl
    obtain ⟨hdir, hs⟩ := hr.of_passable hp
    obtain ⟨trail', hr', hl', hwalk⟩ := ih hr rfl
    exact ⟨trail', hr', hl', by rw [← hwalk, List.cons_append, walk]; simp [hdir, hs, hds]⟩
  | up hp _ ih =>
    subst hl
    obtain ⟨hdir, hs⟩ := hr.of_passable hp
    obtain ⟨trail', hr', hl', hwalk⟩ := ih hr.tail trail.location_tail
    exact ⟨trail', hr', hl', by rw [← hwalk, List.cons_append, walk]; simp [hdir, hs]⟩
  | @follow _ _ _ _ _ p _ rest hp hsize hname _ ih =>
    subst hl
    obtain ⟨hdir, hs⟩ := hr.of_passable hp
    obtain ⟨trail', hr', hl', hwalk⟩ := ih hr rfl
    rw [hr.at?_cons] at hname
    rw [List.append_assoc, ← onward_of_ne_nil p (by simp [hds])] at hwalk
    refine ⟨trail', hr', hl', ?_⟩
    rw [← hwalk, List.cons_append, walk]
    simp [hdir, hs, hname, Nat.not_lt.mpr hsize, hds]
  | @enter _ _ _ _ name m rest hp hsize hname hlink _ ih =>
    subst hl
    obtain ⟨hdir, hs⟩ := hr.of_passable hp
    obtain ⟨trail', hr', hl', hwalk⟩ := @ih ((name, m) :: trail) ⟨hname, hr⟩ rfl
    rw [hr.at?_cons] at hname
    refine ⟨trail', hr', hl', ?_⟩
    rw [← hwalk, List.cons_append, walk]
    cases m with
    | link p changed => cases hlink
    | _ => simp [hdir, hs, hname, Nat.not_lt.mpr hsize]

/-- A path leads nowhere that goes on behind a name where nothing is. -/
theorem find_noEntry {cs : List (Component Name)} (h : t.find true q = .ok (.entry l d))
    (hdir : d.isDir = true) (hsearch : d.grants .search = true) (hsize : a.size ≤ nameLimit)
    (hnone : t.root.at? (a :: l) = none) (hwalk : p.walked = q.walked ++ .name a :: cs)
    (hcs : cs ≠ []) (hname : Nameable p) : t.find follow p = .error (.os .noEntry) := by
  have hpass : Passable t.root l := ⟨d, find_holds h, hdir, hsearch⟩
  obtain ⟨k, hgoes⟩ := ((find_eq_ok_iff t true q _).mp h).2.goes_of_passable hpass
  have hends : t.walk follow linkLimit [] p.walked = .error .noEntry := by
    obtain ⟨trail, hr, rfl, hrest⟩ :=
      walk_goes follow hgoes (List.cons_ne_nil (.name a) cs)
        (show Trail.Real t.root [] from trivial) rfl
    obtain ⟨hdir, hs⟩ := hr.of_passable hpass
    rw [hr.at?_cons] at hnone
    rw [hwalk, hrest, walk]
    simp [hdir, hs, hnone, Nat.not_lt.mpr hsize, hcs]
  obtain ⟨hnul, hzero, hlong⟩ := hname
  rw [find, if_neg (by rw [hnul]; decide), if_neg hzero, if_neg (Nat.not_le.mpr hlong), hends]

/-- A path that is destined for a place where nothing is goes on behind a name where nothing is. -/
theorem Destined.nearest (h : Destined t p l) (hopen : Open t l) (hnameable : Nameable p)
    (hnone : t.root.at? l = none) :
    ∃ q k d a cs, t.find true q = .ok (.entry k d) ∧ d.isDir = true ∧ d.grants .search = true ∧
      a.size ≤ nameLimit ∧ t.root.at? (a :: k) = none ∧ p.walked = q.walked ++ .name a :: cs := by
  induction h with
  | found h _ =>
    have hd := find_holds h
    rw [Target.Holds, hnone] at hd
    cases hd
  | @under above p l a h hp hname hlink ih =>
    cases hd : t.root.at? l with
    | some d =>
      obtain ⟨hdir, hsearch, -⟩ := hopen.above a l d (List.suffix_refl _) hd
      exact ⟨above, l, d, a, [], h.leads hopen.tail (hname hnameable) hd hdir, hdir, hsearch,
        hopen.names a List.mem_cons_self, hnone, hp.walked⟩
    | none =>
      obtain ⟨q, k, d, b, cs, hq, hdir, hsearch, hsize, hbnone, hwalk⟩ :=
        ih hopen.tail (hname hnameable) hd
      exact ⟨q, k, d, b, cs ++ [.name a], hq, hdir, hsearch, hsize, hbnone,
        by rw [hp.walked, hwalk, List.append_assoc, List.cons_append]⟩

/-- No directory is made below one that is missing. -/
theorem Destined.createDir_noEntry (h : Destined t above l) (hopen : Open t l)
    (hnone : t.root.at? l = none) (hp : Under above a p) (hname : Nameable p → Nameable above)
    (hnameable : Nameable p) : t.createDir now p = .error (.os .noEntry) := by
  obtain ⟨q, k, d, b, cs, hq, hdir, hsearch, hsize, hbnone, hwalk⟩ :=
    h.nearest hopen (hname hnameable) hnone
  have hwalk' : p.walked = q.walked ++ .name b :: (cs ++ [.name a]) := by
    rw [hp.walked, hwalk, List.append_assoc, List.cons_append]
  rw [createDir, find_noEntry hq hdir hsearch hsize hbnone hwalk' (by simp) hnameable]

/-- A directory is made at a free name of one that takes it. -/
theorem createDir_of_find (now : Time) (h : t.find true above = .ok (.entry l d))
    (hdir : d.isDir = true) (hsearch : d.grants .search = true) (hwrite : d.grants .write = true)
    (hsize : a.size ≤ nameLimit) (hnone : t.root.at? (a :: l) = none) (hp : Under above a p)
    (hname : Nameable p) : ∃ t', t.createDir now p = .ok t' ∧
      t'.find true p = .ok (.entry (a :: l) (emptyDir now)) := by
  have hd : t.root.at? l = some d := find_holds h
  have hfree (follow : Bool) : t.find follow p = .ok (.vacant l a) := by
    refine (find_under_iff h hdir hp fun m hm => ?_).mpr
      ⟨hname, hsearch, hsize, (lookedUp_of_none hd hnone).symm⟩
    rw [hnone] at hm
    cases hm
  have hmay : t.mayChange l = true := by simp [mayChange, hd, hwrite, hsearch]
  refine ⟨t.changeDir l (·.put a (emptyDir now)), ?_, ?_⟩
  · rw [createDir, hfree]
    simp only [hmay, if_true]
    rfl
  · exact find_filled (.put hnone _) (hfree true) (Node.at?_put hd hdir a _ [])
      (by simp [emptyDir, Node.isLink])

/-- Where nothing hinders, a directory is made with those above it, or it is there. -/
theorem createDirs_made (now : Time) (h : Destined t p l) (hopen : Open t l)
    (hnameable : Nameable p) (hdir : ∀ d, t.root.at? l = some d → d.isDir = true) {fuel : Nat}
    (hfuel : p.components.length < fuel) (missing : List Place) :
    ∃ t', Raised now l t t' ∧ (∃ d, t'.find true p = .ok (.entry l d) ∧ d.isDir = true) ∧
      t.createDirs now missing (upFrom fuel p) = t'.createEach now missing := by
  have hdest := h
  induction h generalizing fuel missing with
  | found h hd => exact ⟨t, .refl now _ t, ⟨_, h, hd⟩, createDirs_of_find h hd missing fuel⟩
  | @under above p l a h hp hname hlink ih =>
    have hsize := hopen.names a List.mem_cons_self
    obtain ⟨fuel, rfl⟩ : ∃ k, fuel = k + 1 := ⟨fuel - 1, by omega⟩
    rw [hp.components, List.length_append, List.length_singleton] at hfuel
    cases hm : t.root.at? (a :: l) with
    | some m =>
      have hfind := hdest.leads hopen hnameable hm (hdir m hm)
      exact ⟨t, .refl now _ t, ⟨m, hfind, hdir m hm⟩,
        createDirs_of_find hfind (hdir m hm) missing _⟩
    | none =>
      rw [upFrom, hp.parent]
      simp only
      rw [createDirs]
      cases hd : t.root.at? l with
      | some d =>
        obtain ⟨hddir, hsearch, hwrite⟩ := hopen.above a l d (List.suffix_refl _) hd
        obtain ⟨t', hmade, hfind⟩ := createDir_of_find now
          (h.leads hopen.tail (hname hnameable) hd hddir) hddir hsearch (hwrite hm) hsize hm hp
          hnameable
        refine ⟨t', createDir_raised hdest hmade, ⟨_, hfind, rfl⟩, ?_⟩
        rw [hmade]
      | none =>
        rw [h.createDir_noEntry hopen.tail hd hp hname hnameable]
        simp only [if_true]
        obtain ⟨t₁, hraised, ⟨d₁, hfind₁, hdir₁⟩, hdirs⟩ :=
          ih hopen.tail (hname hnameable) (by simp [hd]) (show _ < fuel by omega) (p :: missing) h
        -- the directory above is new, so that it takes what is made in it
        obtain ⟨hsearch, hwrite⟩ := hraised.grants hd (find_holds hfind₁)
        obtain ⟨t', hmade, hfind⟩ := createDir_of_find now hfind₁ hdir₁ hsearch hwrite
          hsize (hraised.none_behind hm) hp hnameable
        refine ⟨t', ?_, ⟨_, hfind, rfl⟩, ?_⟩
        · exact (hraised.mono (List.suffix_cons a l)).trans
            (createDir_raised (hdest.raised hraised) hmade)
        · rw [hdirs, createEach, hmade]

theorem createDirAll_made (now : Time) (h : Destined t p l) (hopen : Open t l)
    (hnameable : Nameable p) (hdir : ∀ d, t.root.at? l = some d → d.isDir = true) :
    ∃ t', t.createDirAll now p = (t', none) ∧ Raised now l t t' ∧
      ∃ d, t'.find true p = .ok (.entry l d) ∧ d.isDir = true := by
  obtain ⟨t', hraised, hfind, hdirs⟩ :=
    createDirs_made now h hopen hnameable hdir (Nat.lt_succ_self _) []
  exact ⟨t', hdirs, hraised, hfind⟩

end Made

end LineShell.FileTree

import LineShell.Proofs.Files.Node

/-! Where paths lead, as a derivation on locations. The walk through a tree succeeds exactly along
such derivations, and what they find depends only on the entries on the way. -/

namespace LineShell.FileTree

/-- A directory that may be gone through. -/
def Passable (root : Node) (l : Location) : Prop :=
  ∃ d, root.at? l = some d ∧ d.isDir = true ∧ d.grants .search = true

/-- From a directory at `l`, with so many links left to follow, the components lead to a target. -/
inductive Leads (root : Node) (follow : Bool) :
    Nat → Location → List (Component Name) → Target → Prop where
  | arrived {links : Nat} {l : Location} {n : Node} (hn : root.at? l = some n) :
    Leads root follow links l [] (.entry l n)
  | root {links : Nat} {l : Location} {rest : List (Component Name)} {target : Target}
    (hl : Passable root l) (hrest : Leads root follow links [] rest target) :
    Leads root follow links l (.root :: rest) target
  | here {links : Nat} {l : Location} {rest : List (Component Name)} {target : Target}
    (hl : Passable root l) (hrest : Leads root follow links l rest target) :
    Leads root follow links l (.here :: rest) target
  | stay {links : Nat} {l : Location} {n : Node} (hn : root.at? l = some n)
    (hdir : n.isDir = true) : Leads root follow links l [.here] (.entry l n)
  | up {links : Nat} {l : Location} {rest : List (Component Name)} {target : Target}
    (hl : Passable root l) (hrest : Leads root follow links l.tail rest target) :
    Leads root follow links l (.up :: rest) target
  | vacant {links : Nat} {l : Location} {name : Name} (hl : Passable root l)
    (hsize : name.size ≤ nameLimit) (hname : root.at? (name :: l) = none) :
    Leads root follow links l [.name name] (.vacant l name)
  | link {links : Nat} {l : Location} {name : Name} {p : Path} {changed : Time}
    (hl : Passable root l) (hsize : name.size ≤ nameLimit)
    (hname : root.at? (name :: l) = some (.link p changed)) (hfollow : follow = false) :
    Leads root follow links l [.name name] (.entry (name :: l) (.link p changed))
  | follow {links : Nat} {l : Location} {name : Name} {p : Path} {changed : Time}
    {rest : List (Component Name)} {target : Target} (hl : Passable root l)
    (hsize : name.size ≤ nameLimit) (hname : root.at? (name :: l) = some (.link p changed))
    (hfollow : rest = [] → follow = true)
    (hrest : Leads root follow links l (onward p rest) target) :
    Leads root follow (links + 1) l (.name name :: rest) target
  | enter {links : Nat} {l : Location} {name : Name} {m : Node}
    {rest : List (Component Name)} {target : Target} (hl : Passable root l)
    (hsize : name.size ≤ nameLimit) (hname : root.at? (name :: l) = some m)
    (hlink : m.isLink = false) (hrest : Leads root follow links (name :: l) rest target) :
    Leads root follow links l (.name name :: rest) target

/-- A trail of entries that are in the tree, each in the one before it. -/
def Trail.Real (root : Node) : Trail → Prop
  | [] => True
  | (name, n) :: rest => root.at? (name :: Trail.location rest) = some n ∧ Trail.Real root rest

theorem Trail.Real.at?_location {t : FileTree} {trail : Trail} (h : trail.Real t.root) :
    t.root.at? trail.location = some (t.standing trail) := by
  cases trail with
  | nil => rfl
  | cons e trail => exact h.1

theorem Trail.Real.tail {root : Node} {trail : Trail} (h : Trail.Real root trail) :
    Trail.Real root (List.tail trail) := by
  cases trail with
  | nil => trivial
  | cons e trail => exact h.2

theorem Trail.location_tail (trail : Trail) :
    Trail.location (List.tail trail) = (Trail.location trail).tail := by
  cases trail <;> rfl

/-- The entry that a walk looks up next. -/
theorem Trail.Real.at?_cons {t : FileTree} {trail : Trail} (h : trail.Real t.root) (name : Name) :
    t.root.at? (name :: trail.location) = Node.entry? (t.standing trail) name := by
  rw [Node.at?_cons, h.at?_location]
  rfl

/-- What the walk checks before it goes on. -/
theorem Trail.Real.passable {t : FileTree} {trail : Trail} (h : trail.Real t.root)
    (hdir : ¬ (!(t.standing trail).isDir) = true)
    (hs : ¬ (!(t.standing trail).grants .search) = true) : Passable t.root trail.location :=
  ⟨_, h.at?_location, by simpa using hdir, by simpa using hs⟩

theorem Trail.Real.of_passable {t : FileTree} {trail : Trail} (h : trail.Real t.root)
    (hl : Passable t.root trail.location) :
    (t.standing trail).isDir = true ∧ (t.standing trail).grants .search = true := by
  obtain ⟨d, hd, hdir, hs⟩ := hl
  rw [h.at?_location] at hd
  cases hd
  exact ⟨hdir, hs⟩

private theorem leads_of_walk {t : FileTree} {follow : Bool} {links : Nat} {trail : Trail}
    {todo : List (Component Name)} {target : Target} (hr : trail.Real t.root)
    (h : t.walk follow links trail todo = .ok target) :
    Leads t.root follow links trail.location todo target := by
  fun_induction walk t follow links trail todo
  case case1 => cases h; exact .arrived hr.at?_location
  case case2 | case4 | case8 | case10 | case12 => cases h
  case case3 hd hstay =>
    cases h
    obtain ⟨rfl, hrest⟩ := hstay
    obtain rfl := List.isEmpty_iff.mp hrest
    exact .stay hr.at?_location (by simpa using hd)
  case case5 hd hs _ ih => exact .root (hr.passable hd hs) (ih trivial h)
  case case6 hd hs _ ih => exact .here (hr.passable hd hs) (ih hr h)
  case case7 hd hs _ ih =>
    refine .up (hr.passable hd hs) ?_
    rw [← Trail.location_tail]
    exact ih hr.tail h
  case case9 hd hs name hsize hname hrest _ =>
    cases h
    obtain rfl := List.isEmpty_iff.mp hrest
    exact .vacant (hr.passable hd hs) (by omega)
      (by rw [hr.at?_cons, hname])
  case case11 hd hs name hsize p changed hname hrest _ =>
    cases h
    obtain ⟨hrest, hfollow⟩ := Bool.and_eq_true_iff.mp hrest
    obtain rfl := List.isEmpty_iff.mp hrest
    exact .link (hr.passable hd hs) (by omega)
      (by rw [hr.at?_cons, hname]) (by simpa using hfollow)
  case case13 hd hs name hsize p changed hname hrest links _ ih =>
    refine .follow (hr.passable hd hs) (by omega)
      (by rw [hr.at?_cons, hname]) ?_ (ih hr h)
    rintro rfl
    simpa using hrest
  case case14 hd hs name hsize m hlink hname _ ih =>
    have hentry := (hr.at?_cons name).trans hname
    refine .enter (hr.passable hd hs) (by omega) hentry ?_
      (ih ⟨hentry, hr⟩ h)
    cases m with
    | link p changed => exact absurd rfl (hlink p changed)
    | _ => rfl

private theorem walk_of_leads {t : FileTree} {follow : Bool} {links : Nat} {l : Location}
    {todo : List (Component Name)} {target : Target} (h : Leads t.root follow links l todo target)
    {trail : Trail} (hr : trail.Real t.root) (hl : trail.location = l) :
    t.walk follow links trail todo = .ok target := by
  induction h generalizing trail with
  | arrived hn =>
    subst hl
    rw [hr.at?_location] at hn
    cases hn
    rw [walk]
  | root hp _ ih =>
    subst hl
    obtain ⟨hdir, hs⟩ := hr.of_passable hp
    rw [walk]
    simpa [hdir, hs] using @ih [] trivial rfl
  | @here links l rest target hp hrest ih =>
    subst hl
    obtain ⟨hdir, hs⟩ := hr.of_passable hp
    rw [walk]
    by_cases hend : rest = []
    · subst hend
      simpa [hdir, walk] using ih hr rfl
    · simpa [hdir, hs, hend] using ih hr rfl
  | stay hn hdir =>
    subst hl
    rw [hr.at?_location] at hn
    cases hn
    rw [walk]
    simp [hdir]
  | up hp _ ih =>
    subst hl
    obtain ⟨hdir, hs⟩ := hr.of_passable hp
    rw [walk]
    simpa [hdir, hs] using ih hr.tail trail.location_tail
  | vacant hp hsize hname =>
    subst hl
    obtain ⟨hdir, hs⟩ := hr.of_passable hp
    rw [hr.at?_cons] at hname
    rw [walk]
    simp [hdir, hs, hname, Nat.not_lt.mpr hsize]
  | link hp hsize hname hfollow =>
    subst hl
    obtain ⟨hdir, hs⟩ := hr.of_passable hp
    rw [hr.at?_cons] at hname
    rw [walk]
    simp [hdir, hs, hname, Nat.not_lt.mpr hsize, hfollow]
  | @follow links l name p changed rest target hp hsize hname hfollow hrest ih =>
    subst hl
    obtain ⟨hdir, hs⟩ := hr.of_passable hp
    rw [hr.at?_cons] at hname
    have hgo : ¬ (rest = [] ∧ follow = false) := fun hstop => by simp [hfollow hstop.1] at hstop
    rw [walk]
    simpa [hdir, hs, hname, Nat.not_lt.mpr hsize, hgo] using ih hr rfl
  | @enter links l name m rest target hp hsize hname hlink hrest ih =>
    subst hl
    obtain ⟨hdir, hs⟩ := hr.of_passable hp
    have hnext := @ih ((name, m) :: trail) ⟨hname, hr⟩ rfl
    rw [hr.at?_cons] at hname
    rw [walk]
    cases m with
    | link p changed => cases hlink
    | _ => simpa [hdir, hs, hname, Nat.not_lt.mpr hsize] using hnext

/-- A walk comes to a target just where the components lead to it. -/
theorem walk_eq_ok_iff (t : FileTree) (follow : Bool) (links : Nat) (todo : List (Component Name))
    (target : Target) :
    t.walk follow links [] todo = .ok target ↔ Leads t.root follow links [] todo target :=
  ⟨@leads_of_walk t follow links [] todo target trivial, fun h => walk_of_leads h trivial rfl⟩

/-- A path that the system takes. -/
def Nameable (p : Place) : Prop :=
  p.path.contains (Char.ofNat 0) = false ∧ p.size ≠ 0 ∧ p.size < pathLimit

instance (p : Place) : Decidable (Nameable p) := by
  unfold Nameable; infer_instance

theorem find_eq_ok_iff (t : FileTree) (follow : Bool) (p : Place) (target : Target) :
    t.find follow p = .ok target ↔
      Nameable p ∧ Leads t.root follow linkLimit [] p.walked target := by
  rw [← walk_eq_ok_iff, find, Nameable]
  split_ifs with hnul hzero hlong
  · simp only [hnul, reduceCtorEq, false_and]
  · simp only [hzero, ne_eq, not_true_eq_false, false_and, and_false]
  · simp only [Nat.not_lt.mpr hlong, and_false, false_and]
  · have hname : p.path.contains (Char.ofNat 0) = false ∧ p.size ≠ 0 ∧ p.size < pathLimit :=
      ⟨Bool.not_eq_true _ ▸ hnul, hzero, Nat.lt_of_not_ge hlong⟩
    cases t.walk follow linkLimit [] p.walked with
    | ok found =>
      change Except.ok found = Except.ok target ↔ _
      rw [Except.ok.injEq, Except.ok.injEq, and_iff_right hname]
    | error e => simp only [reduceCtorEq, and_false]

theorem node_eq_ok_iff (t : FileTree) (follow : Bool) (p : Place) (n : Node) :
    t.node follow p = .ok n ↔ ∃ l, t.find follow p = .ok (.entry l n) := by
  rw [node]
  split <;> simp_all

/-- What is listed is a directory that may be read. -/
theorem list_eq_ok_iff (t : FileTree) (p : Place) (entries : List (Name × Node)) :
    t.list p = .ok entries ↔
      ∃ l d, t.find true p = .ok (.entry l d) ∧ d.isDir = true ∧ d.grants .read = true ∧
        entries = d.entries := by
  have hlist : t.list p = .ok entries ↔
      ∃ d, t.node true p = .ok d ∧ d.isDir = true ∧ d.grants .read = true ∧
        entries = d.entries := by
    rw [list]
    cases t.node true p with
    | error e => simp
    | ok d =>
      simp only [Except.ok.injEq, exists_eq_left', Bool.not_eq_eq_eq_not, Bool.not_true]
      split_ifs with hdir hread
      · simp [hdir]
      · simp [hread]
      · simp [hdir, hread, eq_comm]
  simp only [hlist, node_eq_ok_iff]
  constructor
  · rintro ⟨d, ⟨l, hfind⟩, hd⟩
    exact ⟨l, d, hfind, hd⟩
  · rintro ⟨l, d, hfind, hd⟩
    exact ⟨d, ⟨l, hfind⟩, hd⟩

/-- The end of a derivation: an entry is there, and a vacant name is not. -/
def Target.Holds (root : Node) : Target → Prop
  | .entry l n => root.at? l = some n
  | .vacant l name => Passable root l ∧ name.size ≤ nameLimit ∧ root.at? (name :: l) = none

theorem Leads.holds {root : Node} {follow : Bool} {links : Nat} {l : Location}
    {todo : List (Component Name)} {target : Target} (h : Leads root follow links l todo target) :
    Target.Holds root target := by
  induction h with
  | arrived hn | stay hn _ => exact hn
  | root _ _ ih | here _ _ ih | up _ _ ih => exact ih
  | vacant hl hsize hname => exact ⟨hl, hsize, hname⟩
  | link _ _ hname _ => exact hname
  | follow _ _ _ _ _ ih | enter _ _ _ _ _ ih => exact ih

theorem find_holds {t : FileTree} {follow : Bool} {p : Place} {target : Target}
    (h : t.find follow p = .ok target) : Target.Holds t.root target :=
  ((find_eq_ok_iff t follow p target).mp h).2.holds

variable {root root' : Node} {follow : Bool} {links : Nat} {l : Location}
  {todo : List (Component Name)}

theorem Passable.within (h : Passable root l) (hw : root.Within root') : Passable root' l := by
  obtain ⟨d, hd, hdir, hs⟩ := h
  obtain ⟨d', hd', ha⟩ := hw l d hd
  exact ⟨d', hd', ha.isDir ▸ hdir, ha.grants .search ▸ hs⟩

/-- A derivation is repeated in a tree that holds more, but for its last step. -/
private theorem Leads.carry {target target' : Target} (hw : root.Within root')
    (h : Leads root follow links l todo target)
    (harrived : ∀ links l n, target = .entry l n → root.at? l = some n →
      Leads root' follow links l [] target')
    (hstay : ∀ links l n, target = .entry l n → root.at? l = some n → n.isDir = true →
      Leads root' follow links l [.here] target')
    (hvacant : ∀ links l name, target = .vacant l name → Passable root' l →
      name.size ≤ nameLimit → Leads root' follow links l [.name name] target')
    (hlink : ∀ links l name n, target = .entry (name :: l) n → Passable root' l →
      name.size ≤ nameLimit → n.isLink = true → root.at? (name :: l) = some n → follow = false →
      Leads root' follow links l [.name name] target') :
    Leads root' follow links l todo target' := by
  induction h with
  | arrived hn => exact harrived _ _ _ rfl hn
  | stay hn hdir => exact hstay _ _ _ rfl hn hdir
  | root hl _ ih => exact .root (hl.within hw) (ih harrived hstay hvacant hlink)
  | here hl _ ih => exact .here (hl.within hw) (ih harrived hstay hvacant hlink)
  | up hl _ ih => exact .up (hl.within hw) (ih harrived hstay hvacant hlink)
  | vacant hl hsize hname => exact hvacant _ _ _ rfl (hl.within hw) hsize
  | link hl hsize hname hfollow => exact hlink _ _ _ _ rfl (hl.within hw) hsize rfl hname hfollow
  | follow hl hsize hname hfollow _ ih =>
    exact .follow (hl.within hw) hsize (hw.at?_eq hname rfl) hfollow
      (ih harrived hstay hvacant hlink)
  | enter hl hsize hname hm _ ih =>
    obtain ⟨m', hm', ha⟩ := hw _ _ hname
    exact .enter (hl.within hw) hsize hm' (ha.isLink ▸ hm) (ih harrived hstay hvacant hlink)

/-- What a path leads to stays there when the tree grows. -/
theorem Leads.within {n : Node} {at' : Location} (h : Leads root follow links l todo (.entry at' n))
    (hw : root.Within root') :
    ∃ n', n.Alike n' ∧ Leads root' follow links l todo (.entry at' n') := by
  obtain ⟨n', hn', ha⟩ := hw _ _ h.holds
  refine ⟨n', ha, h.carry hw ?_ ?_ ?_ ?_⟩
  · intro links l k hk _
    cases hk
    exact .arrived hn'
  · intro links l k hk _ hdir
    cases hk
    exact .stay hn' (ha.isDir ▸ hdir)
  · intro links l name hk
    cases hk
  · intro links l name k hk hl hsize hlink hname hfollow
    cases hk
    obtain rfl := ha.eq (by cases n <;> simp_all [Node.isLink, Node.isDir])
    cases n with
    | link p changed => exact .link hl hsize hn' hfollow
    | _ => cases hlink

/-- A vacant name is found vacant again, or else what has come there. -/
theorem Leads.within_vacant {parent : Location} {name : Name}
    (h : Leads root follow links l todo (.vacant parent name)) (hw : root.Within root') :
    (root'.at? (name :: parent) = none → Leads root' follow links l todo (.vacant parent name)) ∧
      ∀ m, root'.at? (name :: parent) = some m → (m.isLink = true → follow = false) →
        Leads root' follow links l todo (.entry (name :: parent) m) := by
  constructor
  · intro hnone
    refine h.carry hw ?_ ?_ ?_ ?_
    · intro links l n hk
      cases hk
    · intro links l n hk
      cases hk
    · intro links l k hk hl hsize
      cases hk
      exact .vacant hl hsize hnone
    · intro links l k n hk
      cases hk
  · intro m hm hlink
    refine h.carry hw ?_ ?_ ?_ ?_
    · intro links l n hk
      cases hk
    · intro links l n hk
      cases hk
    · intro links l k hk hl hsize
      cases hk
      cases hb : m.isLink with
      | false => exact .enter hl hsize hm hb (.arrived hm)
      | true =>
        cases m with
        | link p changed => exact .link hl hsize hm (hlink hb)
        | _ => cases hb
    · intro links l k n hk
      cases hk

/-- All that lies above a directory is a directory. -/
theorem Passable.above {x : Location} {m : Node} (h : Passable root (x ++ l))
    (hm : root.at? l = some m) : m.isDir = true := by
  obtain ⟨d, hd, hdir, -⟩ := h
  rw [Node.at?_append, hm, Option.bind_some] at hd
  cases x using List.reverseRecOn with
  | nil => cases hd; exact hdir
  | append_singleton x k _ =>
    rw [Node.at?_append, Node.at?_singleton] at hd
    obtain ⟨e, he, -⟩ := Option.bind_eq_some_iff.mp hd
    exact Node.isDir_of_entry? he

theorem isLink_of_isDir {n : Node} (h : n.isDir = true) : n.isLink = false := by
  cases n <;> first | rfl | cases h

/-- Links are followed to their end, so that no way ends at one. -/
private theorem Leads.isLink {target : Target} (h : Leads root true links l todo target)
    (hl : ∀ m, root.at? l = some m → m.isLink = false) :
    ∀ l' n, target = .entry l' n → n.isLink = false := by
  induction h with
  | arrived hn | stay hn _ =>
    rintro _ _ ⟨rfl, rfl⟩
    exact hl _ hn
  | @root links l rest target hp _ ih =>
    refine ih fun m hm => isLink_of_isDir ?_
    exact Passable.above (x := l) (by rwa [List.append_nil]) hm
  | here _ _ ih => exact ih hl
  | @up links l rest target hp _ ih =>
    refine ih fun m hm => isLink_of_isDir ?_
    cases l with
    | nil => exact Passable.above (x := []) hp hm
    | cons name l => exact Passable.above (x := [name]) hp hm
  | vacant _ _ _ =>
    rintro _ _ ⟨⟩
  | link _ _ _ hfollow => cases hfollow
  | follow _ _ _ _ _ ih => exact ih hl
  | enter _ _ hname hlink _ ih =>
    refine ih fun m hm => ?_
    rw [hname] at hm
    cases hm
    exact hlink

theorem spelled_ne_nil {p : Path} (h : p ≠ []) : Path.spelled p ≠ [] := by
  cases p with
  | nil => exact absurd rfl h
  | cons c p =>
    by_cases hc : c = '/'
    · simp [Path.spelled, Path.isAbsolute, hc]
    · obtain ⟨first, rest, hsplit⟩ := List.exists_cons_of_ne_nil (List.splitOnP_ne_nil (· == '/') p)
      have hpieces : (c :: p).splitOn '/' = (c :: first) :: rest := by
        rw [List.splitOn, List.splitOnP_cons_eq_if_modifyHead, if_neg (by simpa using hc), hsplit]
        rfl
      simp [Path.spelled, hpieces]

theorem walked_ne_nil {p : Place} (h : Nameable p) : p.walked ≠ [] := by
  intro hnil
  obtain ⟨hpath, hinside⟩ := List.append_eq_nil_iff.mp hnil
  have hinside' : p.inside = [] := by simpa using hinside
  have hpath' : p.path = [] := by
    by_contra hne
    have hnone : Path.allComponents p.path = [] := by simpa using hpath
    exact spelled_ne_nil hne (List.append_eq_nil_iff.mp hnone).1
  exact h.2.1 (by simp [Place.size, hinside', hpath', Text.total])

theorem isLink_of_find {t : FileTree} {p : Place} {l : Location} {n : Node}
    (h : t.find true p = .ok (.entry l n)) : n.isLink = false := by
  obtain ⟨hname, hleads⟩ := (find_eq_ok_iff t true p _).mp h
  refine hleads.isLink (fun m hm => isLink_of_isDir ?_) l n rfl
  generalize htodo : p.walked = todo at hleads
  cases hleads with
  | arrived _ => exact absurd htodo (walked_ne_nil hname)
  | stay hn hdir =>
    rw [hn] at hm
    cases hm
    exact hdir
  | root hl _ | here hl _ | up hl _ | link hl _ _ _ | follow hl _ _ _ _ | enter hl _ _ _ _ =>
    exact Passable.above (x := []) hl hm

/-- What a lookup of a name in a directory is for a path that leads there. -/
def lookedUp (parent : Location) (name : Name) (entries : List (Name × Node)) : Target :=
  match List.lookup name entries with
  | some n => .entry (name :: parent) n
  | none => .vacant parent name

/-- A path of one name from the root. -/
def FromRoot (p : Path) (name : Name) : Prop :=
  Nameable p ∧ Place.walked p = [.root, .name name] ∧ name.size ≤ nameLimit

instance (p : Path) (name : Name) : Decidable (FromRoot p name) := by
  unfold FromRoot; infer_instance

section LookedUp

variable {mode : Nat} {changed : Time} {entries : List (Name × Node)} {name : Name}
  (hsearch : Access.search.granted mode = true)

include hsearch

theorem Leads.lookedUp (hdir : root.at? l = some (.dir mode changed entries))
    (hsize : name.size ≤ nameLimit) (hlink : (List.lookup name entries).any Node.isLink = false) :
    Leads root follow links l [.name name] (lookedUp l name entries) := by
  have hpass : Passable root l := ⟨_, hdir, rfl, hsearch⟩
  have hat : root.at? (name :: l) = List.lookup name entries := by
    rw [Node.at?_cons, hdir]
    rfl
  rw [FileTree.lookedUp]
  cases hn : List.lookup name entries with
  | none => exact .vacant hpass hsize (hat.trans hn)
  | some n =>
    rw [hn] at hlink
    exact .enter hpass hsize (hat.trans hn) hlink (.arrived (hat.trans hn))

/-- A path of one name from the root leads to what the root directory has by that name. -/
theorem find_fromRoot (t : FileTree) (hroot : t.root = .dir mode changed entries) {p : Path}
    (hp : FromRoot p name) (hlink : (List.lookup name entries).any Node.isLink = false) :
    t.find follow p = .ok (lookedUp [] name entries) := by
  obtain ⟨hname, hwalk, hsize⟩ := hp
  have hdir : t.root.at? [] = some (.dir mode changed entries) := congrArg some hroot
  refine (find_eq_ok_iff _ _ _ _).mpr ⟨hname, ?_⟩
  rw [hwalk]
  exact .root ⟨_, hdir, rfl, hsearch⟩ (.lookedUp hsearch hdir hsize hlink)

end LookedUp

end LineShell.FileTree

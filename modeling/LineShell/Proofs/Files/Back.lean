import LineShell.Proofs.Files.Route
import Mathlib.Data.List.Flatten
import Mathlib.Data.List.TakeWhile

/-! Going back by `..` along a typed path: by the text, which drops the last name, and through the
tree, where the entry that was gone through is left. Both come to the same directory where no link
is gone back from. -/

namespace LineShell

theorem Text.total_le_of_sublist {a b : List Nat} (h : a.Sublist b) : total a ≤ total b := by
  induction h with
  | slnil => exact Nat.le_refl _
  | cons n _ ih => exact Nat.le_add_left_of_le ih
  | cons_cons n _ ih => exact Nat.add_le_add_left ih n

namespace Path

/-- A path without the slashes and lone dots behind its last name. -/
def bare (p : Path) : Path :=
  (dropIdle p.reverse).reverse

/-- The paths that a walk goes back from. -/
def leftBy (reached : Path) : List (Component Text) → List Path
  | [] => []
  | .up :: rest => bare reached :: leftBy (step reached .up) rest
  | c :: rest => leftBy (step reached c) rest

/-- Where the walk along a path begins. -/
def start (cwd p : Path) : Path :=
  if isAbsolute p then ['/'] else cwd

/-- The paths that `..` goes back from in a typed one. -/
def left (home : Option Path) (cwd : Path) (typed : Text) : List Path :=
  let expanded := expandTilde home typed
  leftBy (start cwd expanded) ((names expanded).map Component.ofText)

/-- A path with a slash behind it. -/
def slashed (p : Path) : Path :=
  if p.getLast? = some '/' then p else p ++ ['/']

section Bare

variable {p : Path}

@[simp]
theorem names_bare (p : Path) : names (bare p) = names p := by
  rw [bare, names_dropIdle, List.reverse_reverse]

theorem isAbsolute_bare (hp : isAbsolute p = true) : isAbsolute (bare p) = true := by
  rw [isAbsolute, bare, List.head?_reverse, getLast?_dropIdle, List.getLast?_reverse]
  exact hp

theorem undotted_bare (hp : Undotted p) : Undotted (bare p) :=
  undotted_dropIdle (by rwa [List.reverse_reverse])

theorem dropIdle_suffix (t : Text) : dropIdle t <:+ t := by
  fun_induction dropIdle t with
  | case1 c rest ih => exact ih.trans (List.suffix_cons _ _)
  | case2 c rest ih => exact ih.trans (List.suffix_cons _ _)
  | case3 => decide
  | case4 => exact List.suffix_refl _

theorem bare_sublist (p : Path) : (bare p).Sublist p := by
  have h := (dropIdle_suffix p.reverse).sublist.reverse
  rwa [List.reverse_reverse] at h

theorem stays_bare (hp : isAbsolute p = true) : stays (bare p) = false := by
  rcases dropIdle_eq p.reverse (by simpa [isAbsolute] using hp) with
    hdrop | ⟨n, rest, hn, hslash, hdrop⟩
  · rw [bare, hdrop]
    decide
  · have hlast : n ≠ [] ∧ n ≠ ['.'] := (mem_names_iff.mp (hn ▸ List.mem_singleton_self n)).2
    have hbare : bare p = rest.reverse ++ '/' :: n := by simp [bare, hdrop]
    simp [stays, hbare, List.splitOn_append_cons_self, List.splitOn_eq_singleton hslash, hlast]

theorem spelled_of_undotted (hp : Undotted p) :
    spelled p = (if isAbsolute p then [.root] else []) ++ (names p).map Component.ofText := by
  have hpieces : (p.splitOn '/').filter (!·.isEmpty) = names p := by
    refine List.filter_congr fun n hn => ?_
    have hdot : n ≠ ['.'] := fun h => hp (h ▸ hn)
    cases n <;> simp_all
  rw [spelled, hpieces]

theorem getLast?_spelled_of_undotted (hp : Undotted p) : (spelled p).getLast? ≠ some .here := by
  intro hlast
  rw [spelled_of_undotted hp] at hlast
  have hmem := List.mem_of_getLast? hlast
  rw [List.mem_append, List.mem_map] at hmem
  rcases hmem with hroot | ⟨n, hn, hhere⟩
  · split at hroot <;> simp at hroot
  · exact (mem_names_iff.mp hn).2.2 (ofText_eq_here_iff.mp hhere)

/-- A bare path is walked along its names. -/
theorem walked_bare (hp : isAbsolute p = true) (hdots : Undotted p) :
    Place.walked (bare p) = .root :: FileTree.routeAlong (names p) := by
  have hspelled := spelled_of_undotted (undotted_bare hdots)
  rw [if_pos (isAbsolute_bare hp), names_bare] at hspelled
  simp [Place.walked, allComponents, stays_bare hp, hspelled, FileTree.routeAlong]
  rfl

theorem bare_join (hp : isAbsolute p = true) {n : Text} (hn : IsName n) :
    bare (join p n) = join p n := by
  obtain ⟨base, hjoin, -⟩ := exists_join (ne_nil_of_isAbsolute hp) hn
  rw [bare, hjoin, List.reverse_append, List.reverse_cons, List.append_assoc,
    List.singleton_append, dropIdle_name hn]
  simp

end Bare

section Slashed

variable {p q : Path} {es : List Text}

theorem sublist_slashed (p : Path) : p.Sublist (slashed p) := by
  rw [slashed]
  split
  · exact .refl _
  · exact List.sublist_append_left _ _

theorem slashed_sublist (p : Path) : (slashed p).Sublist (p ++ ['/']) := by
  rw [slashed]
  split
  · exact List.sublist_append_left _ _
  · exact .refl _

theorem exists_slashed (p : Path) : ∃ base, slashed p = base ++ ['/'] ∧ names base = names p := by
  rw [slashed]
  split
  case isTrue hlast =>
    obtain ⟨base, rfl⟩ := List.getLast?_eq_some_iff.mp hlast
    exact ⟨base, rfl, by rw [names_append_slash, names_nil, List.append_nil]⟩
  case isFalse => exact ⟨p, rfl, rfl⟩

theorem join_eq_slashed (hp : p ≠ []) (hq : isAbsolute q = false) :
    join p q = slashed p ++ q := by
  rw [join, if_neg (by simp [hq]), slashed]
  by_cases hlast : p.getLast? = some '/' <;> simp [hp, hlast]

/-- What idles behind a slash goes with it. -/
theorem slashed_dropIdle_sublist {k : Text} (hk : k.head? = some '/') :
    (slashed (dropIdle k).reverse).Sublist k.reverse := by
  obtain ⟨w, hw⟩ := dropIdle_suffix k
  generalize dropIdle k = kept at hw
  subst hw
  rw [slashed, List.getLast?_reverse, List.reverse_append]
  split
  case isTrue => exact List.sublist_append_left _ _
  case isFalse hhead =>
    cases w with
    | nil => exact absurd hk hhead
    | cons c w =>
      obtain rfl : c = '/' := by simpa using hk
      rw [List.append_sublist_append_left, List.reverse_cons]
      exact List.sublist_append_right _ _

theorem slashed_pop_sublist (hp : isAbsolute p = true) : (slashed (pop p)).Sublist (slashed p) := by
  rw [pop, parent?]
  split
  case h_1 | h_2 => exact .refl _
  case h_3 =>
    have hroot : '/' ∈ dropIdle p.reverse := by
      have hlast : p.reverse.getLast? = some '/' := by simpa [isAbsolute] using hp
      exact List.mem_of_getLast? ((getLast?_dropIdle _).trans hlast)
    have hkept : ((dropIdle p.reverse).dropWhile (· ≠ '/')).head? = some '/' := by
      cases hdrop : (dropIdle p.reverse).dropWhile (· ≠ '/') with
      | nil => exact absurd (List.dropWhile_eq_nil_iff.mp hdrop '/' hroot) (by decide)
      | cons c kept => rw [eq_slash_of_dropWhile hdrop, List.head?_cons]
    have hsub := ((List.dropWhile_suffix (· ≠ '/')).trans (dropIdle_suffix p.reverse)).sublist
    have hsub' := hsub.reverse
    rw [List.reverse_reverse] at hsub'
    exact ((slashed_dropIdle_sublist hkept).trans hsub').trans (sublist_slashed p)

/-- A step adds no more than a name and a slash. -/
theorem slashed_step_sublist (hp : isAbsolute p = true) {e : Text} (he : isAbsolute e = false) :
    (slashed (step p (Component.ofText e))).Sublist (slashed p ++ (e ++ ['/'])) := by
  rw [Component.ofText]
  split
  case isTrue => exact List.sublist_append_left _ _
  case isFalse =>
    split
    case isTrue => exact (slashed_pop_sublist hp).trans (List.sublist_append_left _ _)
    case isFalse =>
      rw [step, join_eq_slashed (ne_nil_of_isAbsolute hp) he, ← List.append_assoc]
      exact slashed_sublist _

theorem flatMap_splitOn (p : Path) : (p.splitOn '/').flatMap (· ++ ['/']) = p ++ ['/'] := by
  induction p with
  | nil => rfl
  | cons c p ih =>
    rw [List.splitOn_cons_eq_if_modifyHead]
    split
    case isTrue hc =>
      obtain rfl : c = '/' := by simpa using hc
      simpa using ih
    case isFalse =>
      obtain ⟨first, rest, hsplit⟩ := List.exists_cons_of_ne_nil (List.splitOn_ne_nil '/' p)
      rw [hsplit] at ih ⊢
      simpa using ih

/-- The names of a path that ends in a slash stand in it, each with a slash. -/
theorem flatMap_names_sublist (hp : p = [] ∨ p.getLast? = some '/') :
    ((names p).flatMap (· ++ ['/'])).Sublist p := by
  rcases hp with rfl | hp
  · simp
  · obtain ⟨base, rfl⟩ := List.getLast?_eq_some_iff.mp hp
    rw [names_append_slash, names_nil, List.append_nil, ← flatMap_splitOn]
    exact List.filter_sublist.flatMap _

end Slashed

section Left

variable {q : Path} {es : List Text}

theorem leftBy_append (q : Path) (cs ds : List (Component Text)) :
    leftBy q (cs ++ ds) = leftBy q cs ++ leftBy (cs.foldl step q) ds := by
  induction cs generalizing q with
  | nil => rfl
  | cons c cs ih =>
    cases c <;> simp [leftBy, ih]

/-- What may stand between slashes, lone dots left out. -/
def Between (es : List Text) : Prop :=
  ∀ e ∈ es, e ≠ [] ∧ '/' ∉ e ∧ e ≠ ['.']

theorem between_names (p : Path) : Between (names p) := fun _ he =>
  ⟨(mem_names_iff.mp he).2.1, slash_notMem_of_mem_names he, (mem_names_iff.mp he).2.2⟩

theorem Between.noSlash (h : Between es) : ∀ e ∈ es, e ≠ [] ∧ '/' ∉ e :=
  fun e he => ⟨(h e he).1, (h e he).2.1⟩

/-- The longest path that a walk can come to, with a slash behind it. -/
def farthest (q : Path) (es : List Text) : Path :=
  slashed q ++ es.flatMap (· ++ ['/'])

theorem farthest_step (hq : IsNormal q) {e : Text} (he : '/' ∉ e) :
    (farthest (step q (Component.ofText e)) es).Sublist (farthest q (e :: es)) := by
  rw [farthest, farthest, List.flatMap_cons, ← List.append_assoc]
  exact (slashed_step_sublist hq.absolute (isAbsolute_eq_false_of_notMem he)).append_right _

theorem foldl_step_sublist (hq : IsNormal q) (hes : Between es) :
    ((es.map Component.ofText).foldl step q).Sublist (farthest q es) := by
  induction es generalizing q with
  | nil => exact (sublist_slashed q).trans (List.sublist_append_left _ _)
  | cons e es ih =>
    rw [Between, List.forall_mem_cons] at hes
    have hstep := isClosed_isNormal.step hq ⟨hes.1.1, hes.1.2.1⟩
    exact (ih hstep hes.2).trans (farthest_step hq hes.1.2.1)

theorem leftBy_sublist (hq : IsNormal q) (hes : Between es) :
    ∀ p ∈ leftBy q (es.map Component.ofText), p ≠ [] ∧ p.Sublist (farthest q es) := by
  induction es generalizing q with
  | nil => simp [leftBy]
  | cons e es ih =>
    rw [Between, List.forall_mem_cons] at hes
    have hstep := isClosed_isNormal.step hq ⟨hes.1.1, hes.1.2.1⟩
    have hrest : ∀ p ∈ leftBy (step q (Component.ofText e)) (es.map Component.ofText),
        p ≠ [] ∧ p.Sublist (farthest q (e :: es)) := fun p hp =>
      (ih hstep hes.2 p hp).imp_right fun h =>
        h.trans (farthest_step hq hes.1.2.1)
    have hhead : bare q ≠ [] ∧ (bare q).Sublist (farthest q (e :: es)) :=
      ⟨ne_nil_of_isAbsolute (isAbsolute_bare hq.absolute),
        ((bare_sublist q).trans (sublist_slashed q)).trans (List.sublist_append_left _ _)⟩
    rw [List.map_cons]
    cases hkind : Component.ofText e with
    | up =>
      rw [hkind] at hrest
      rw [leftBy, List.forall_mem_cons]
      exact ⟨hhead, hrest⟩
    | root | here | name n =>
      rw [hkind] at hrest
      exact hrest

end Left

section Start

variable {home : Option Path} {cwd p : Path}

theorem resolve_eq_foldl {typed : Text} (h : typed ≠ []) :
    resolve home cwd typed =
      ((names (expandTilde home typed)).map Component.ofText).foldl step
        (start cwd (expandTilde home typed)) := by
  rw [resolve, if_neg (by simpa using h), foldl_components, start]
  split <;> rfl

theorem IsClosed.start {P : Path → Prop} (h : IsClosed P) (hcwd : P cwd) (p : Path) :
    P (Path.start cwd p) := by
  rw [Path.start]
  split
  · exact h.root
  · exact hcwd

theorem join_of_isAbsolute (hp : isAbsolute p = true) : join cwd p = p :=
  if_pos hp

theorem isAbsolute_join_of_isAbsolute (hcwd : isAbsolute cwd = true) :
    isAbsolute (join cwd p) = true := by
  cases hp : isAbsolute p with
  | true => rwa [join_of_isAbsolute hp]
  | false =>
    rw [join_eq_slashed (ne_nil_of_isAbsolute hcwd) hp, slashed]
    split
    · exact isAbsolute_append hcwd p
    · rw [List.append_assoc]
      exact isAbsolute_append hcwd _

theorem names_join_start (hcwd : isAbsolute cwd = true) :
    names (join cwd p) = names (start cwd p) ++ names p := by
  cases hp : isAbsolute p with
  | true => rw [join_of_isAbsolute hp, start, if_pos hp, names_root, List.nil_append]
  | false =>
    obtain ⟨base, hbase, hnames⟩ := exists_slashed cwd
    rw [join_eq_slashed (ne_nil_of_isAbsolute hcwd) hp, start, if_neg (by simp [hp]), hbase,
      List.append_assoc, List.singleton_append, names_append_slash, hnames]

theorem farthest_start_sublist (hcwd : isAbsolute cwd = true) (hp : p.getLast? = some '/') :
    (farthest (start cwd p) (names p)).Sublist (join cwd p) := by
  cases habs : isAbsolute p with
  | true =>
    obtain ⟨c, rest, rfl⟩ := List.exists_cons_of_ne_nil (ne_nil_of_isAbsolute habs)
    obtain rfl : c = '/' := by simpa [isAbsolute] using habs
    have hnames : names ('/' :: rest) = names rest := names_append_slash [] rest
    have hrest : rest = [] ∨ rest.getLast? = some '/' := by
      cases rest with
      | nil => exact .inl rfl
      | cons c rest => exact .inr hp
    rw [join_of_isAbsolute habs, start, if_pos habs, hnames]
    exact (flatMap_names_sublist hrest).cons_cons '/'
  | false =>
    rw [join_eq_slashed (ne_nil_of_isAbsolute hcwd) habs, start, if_neg (by simp [habs]), farthest]
    exact (flatMap_names_sublist (.inr hp)).append_left _

end Start

end Path

namespace FileTree

open LineShell.Path

/-- A path that leads to a directory which may be gone through. No link is followed at its end. -/
def Searchable (t : FileTree) (p : Path) : Prop :=
  ∃ n, t.node false p = .ok n ∧ n.isDir = true ∧ n.grants .search = true

theorem Nameable.of_sublist {p q : Path} (hq : Nameable q) (h : p.Sublist q) (hp : p ≠ []) :
    Nameable p := by
  obtain ⟨hnul, -, hsize⟩ := hq
  refine ⟨?_, ?_, (Text.total_le_of_sublist (h.map _)).trans_lt hsize⟩
  · rw [← Bool.not_eq_true, List.contains_iff_mem] at hnul ⊢
    exact fun hmem => hnul (h.subset hmem)
  · obtain ⟨c, rest, rfl⟩ := List.exists_cons_of_ne_nil hp
    have hc := c.utf8Size_pos
    change c.utf8Size + _ ≠ 0
    omega

variable {t : FileTree} {links : Nat} {l : Location} {n : Node}

theorem find_bare_iff {p : Path} (hp : isAbsolute p = true) (hdots : Undotted p) {follow : Bool}
    {target : Target} :
    t.find follow (bare p) = .ok target ↔ Nameable (bare p) ∧
      Leads t.root follow linkLimit [] (.root :: routeAlong (names p)) target := by
  rw [find_eq_ok_iff, walked_bare hp hdots]

theorem routeAlong_append (ns ms : List Text) :
    routeAlong (ns ++ ms) = routeAlong ns ++ routeAlong ms :=
  List.map_append

theorem goes_up_iff {root : Node} {k k' : Nat} {m m' : Location} :
    Goes root k m [.up] k' m' ↔ Passable root m ∧ m' = m.tail ∧ k' = k := by
  constructor
  · rintro (_ | _ | _ | ⟨hm, ⟨⟩⟩)
    exact ⟨hm, rfl, rfl⟩
  · rintro ⟨hm, rfl, rfl⟩
    exact .up hm .done

/-- From a directory that is entered by its name and left by `..`. -/
theorem goes_name_up_iff {root : Node} {k k' : Nat} {m m' : Location} {name : Name}
    (hlink : ∀ l n, Leads root false k m [.name name] (.entry l n) → n.isLink = false) :
    (∃ k₁ m₁, Goes root k m [.name name] k₁ m₁ ∧ Goes root k₁ m₁ [.up] k' m') ↔
      (∃ l n, Leads root false k m [.name name] (.entry l n) ∧ n.isDir = true ∧
        n.grants .search = true) ∧ m' = m ∧ k' = k := by
  constructor
  · rintro ⟨k₁, m₁, hname, hup⟩
    obtain ⟨⟨n, hn, hdir, hsearch⟩, rfl, rfl⟩ := goes_up_iff.mp hup
    cases hname with
    | follow hm hsize hat _ => cases hlink _ _ (.link hm hsize hat rfl)
    | enter hm hsize hat hno hdone =>
      cases hdone
      exact ⟨⟨_, n, .enter hm hsize hat hno (.arrived hn), hdir, hsearch⟩, rfl, rfl⟩
  · rintro ⟨⟨l, n, hleads, hdir, hsearch⟩, rfl, rfl⟩
    cases hleads with
    | link => cases hdir
    | follow _ _ _ hfollow _ => exact absurd (hfollow rfl) (by decide)
    | enter hm hsize hat hno harrived =>
      cases harrived with
      | arrived hn =>
        exact ⟨_, _, .enter hm hsize hat hno .done,
          goes_up_iff.mpr ⟨⟨n, hn, hdir, hsearch⟩, rfl, rfl⟩⟩

/-- Going back from the entry that a path leads to is going along the path without its last name,
if the entry is a directory and no link. -/
theorem goes_pop_iff {p : Path} (hp : p.IsNormal) (hdots : Undotted p)
    (hname : Nameable (bare p)) (hlink : t.isLink (bare p) = false) :
    Goes t.root linkLimit [] (.root :: routeAlong (names p) ++ [.up]) links l ↔
      Goes t.root linkLimit [] (.root :: routeAlong (names (pop p))) links l ∧
        t.Searchable (bare p) := by
  have hfound (target : Target) : t.find false (bare p) = .ok target ↔
      Leads t.root false linkLimit [] (.root :: routeAlong (names p)) target := by
    rw [find_bare_iff hp.absolute hdots, and_iff_right hname]
  have hsearchable : t.Searchable (bare p) ↔ ∃ l n,
      Leads t.root false linkLimit [] (.root :: routeAlong (names p)) (.entry l n) ∧
        n.isDir = true ∧ n.grants .search = true := by
    simp only [Searchable, node_eq_ok_iff, hfound]
    constructor
    · rintro ⟨n, ⟨l, h⟩, hn⟩
      exact ⟨l, n, h, hn⟩
    · rintro ⟨l, n, h, hn⟩
      exact ⟨n, ⟨l, h⟩, hn⟩
  have hnoLink (l : Location) (n : Node)
      (h : Leads t.root false linkLimit [] (.root :: routeAlong (names p)) (.entry l n)) :
      n.isLink = false := by
    rw [isLink, (node_eq_ok_iff _ _ _ _).mpr ⟨l, (hfound _).mpr h⟩] at hlink
    exact hlink
  rw [goes_append_iff, names_pop hp.absolute, hsearchable]
  rcases List.eq_nil_or_concat' (names p) with hnil | ⟨ns, e, hnames⟩
  · rw [hnil]
    constructor
    · rintro ⟨k, m, hthere, hup⟩
      obtain ⟨⟨n, hn, hdir, hsearch⟩, rfl, rfl⟩ := goes_up_iff.mp hup
      cases hthere with
      | root hroot hdone =>
        cases hdone
        exact ⟨.root hroot .done, [], n, .root hroot (.arrived hn), hdir, hsearch⟩
    · rintro ⟨hthere, -⟩
      cases hthere with
      | root hroot hdone =>
        cases hdone
        exact ⟨_, _, .root hroot .done, goes_up_iff.mpr ⟨hroot, rfl, rfl⟩⟩
  · have hroute : .root :: routeAlong (names p) =
        (.root :: routeAlong ns) ++ [.name (Name.ofText e)] := by
      have he : Component.ofText e = .name e := (hp.isName (by simp [hnames])).ofText_eq
      rw [hnames, routeAlong_append, List.cons_append]
      simp [routeAlong, he, Component.map]
    rw [hroute] at hnoLink ⊢
    rw [hnames, List.dropLast_concat]
    constructor
    · rintro ⟨k, m, hthere, hup⟩
      obtain ⟨k₁, m₁, hfirst, hname⟩ := goes_append_iff.mp hthere
      obtain ⟨⟨l', n, hleads, hn⟩, rfl, rfl⟩ := (goes_name_up_iff fun l n hleads =>
        hnoLink l n ((leads_append_iff (List.cons_ne_nil _ _)).mpr ⟨_, _, hfirst, hleads⟩)).mp
          ⟨k, m, hname, hup⟩
      exact ⟨hfirst, l', n,
        (leads_append_iff (List.cons_ne_nil _ _)).mpr ⟨_, _, hfirst, hleads⟩, hn⟩
    · rintro ⟨hfirst, l', n, hleads, hn⟩
      obtain ⟨k₁, m₁, hfirst', hname⟩ := (leads_append_iff (List.cons_ne_nil _ _)).mp hleads
      obtain ⟨rfl, rfl⟩ := hfirst.unique hfirst'
      obtain ⟨k, m, hname, hup⟩ := (goes_name_up_iff fun l n hleads =>
        hnoLink l n ((leads_append_iff (List.cons_ne_nil _ _)).mpr ⟨_, _, hfirst, hleads⟩)).mpr
          ⟨⟨l', n, hname, hn⟩, rfl, rfl⟩
      exact ⟨k, m, goes_append_iff.mpr ⟨_, _, hfirst, hname⟩, hup⟩

/-- One step in the tree is one step in the text, if it goes back from no link. -/
theorem goes_step_iff {p : Path} (hp : p.IsNormal) (hdots : Undotted p) {e : Text}
    (he : e ≠ [] ∧ '/' ∉ e ∧ e ≠ ['.'])
    (hname : ∀ r ∈ leftBy p [Component.ofText e], Nameable r)
    (hlink : ∀ r ∈ leftBy p [Component.ofText e], t.isLink r = false) :
    Goes t.root linkLimit []
        (.root :: routeAlong (names p) ++ [(Component.ofText e).map Name.ofText]) links l ↔
      Goes t.root linkLimit []
          (.root :: routeAlong (names (step p (Component.ofText e)))) links l ∧
        ∀ r ∈ leftBy p [Component.ofText e], t.Searchable r := by
  by_cases hup : e = ['.', '.']
  · subst hup
    change ∀ r ∈ [bare p], _ at hname hlink
    rw [List.forall_mem_singleton] at hname hlink
    change _ ↔ Goes t.root linkLimit [] (.root :: routeAlong (names (pop p))) links l ∧
      ∀ r ∈ [bare p], t.Searchable r
    rw [List.forall_mem_singleton]
    exact goes_pop_iff hp hdots hname hlink
  · have hisName : IsName e := ⟨he.1, he.2.1, he.2.2, hup⟩
    rw [hisName.ofText_eq, step, names_join hp.absolute hisName, routeAlong_append]
    simp [leftBy, routeAlong, hisName.ofText_eq]

/-- Where no link is gone back from, a walk through the tree comes to where the text says, if what
it goes back from is there. -/
theorem goes_fold_iff {q : Path} (hq : q.IsNormal) (hdots : Undotted q) {es : List Text}
    (hes : Between es) (hname : ∀ p ∈ leftBy q (es.map Component.ofText), Nameable p)
    (hlink : ∀ p ∈ leftBy q (es.map Component.ofText), t.isLink p = false) :
    Goes t.root linkLimit [] (.root :: routeAlong (names q ++ es)) links l ↔
      Goes t.root linkLimit []
          (.root :: routeAlong (names ((es.map Component.ofText).foldl step q))) links l ∧
        ∀ p ∈ leftBy q (es.map Component.ofText), t.Searchable p := by
  induction es using List.reverseRecOn generalizing links l with
  | nil => simp [leftBy]
  | append_singleton es e ih =>
    rw [Between, List.forall_mem_append, List.forall_mem_singleton] at hes
    rw [List.map_append, leftBy_append, List.map_singleton] at hname hlink ⊢
    rw [List.forall_mem_append] at hname hlink ⊢
    have hnoSlash := Between.noSlash hes.1
    have hnormal := isClosed_isNormal.foldl_step hq hnoSlash
    have hundotted := isClosed_undotted.foldl_step hdots hnoSlash
    have hroute : .root :: routeAlong (names q ++ (es ++ [e])) =
        (.root :: routeAlong (names q ++ es)) ++ [(Component.ofText e).map Name.ofText] := by
      rw [← List.append_assoc, routeAlong_append]
      rfl
    have hbefore {k : Nat} {m : Location} := @ih k m hes.1 hname.1 hlink.1
    rw [List.foldl_append, hroute, goes_append_iff]
    simp only [hbefore]
    constructor
    · rintro ⟨k, m, ⟨hfirst, hback⟩, hlast⟩
      obtain ⟨hgoes, hlast⟩ := (goes_step_iff hnormal hundotted hes.2 hname.2 hlink.2).mp
        (goes_append_iff.mpr ⟨k, m, hfirst, hlast⟩)
      exact ⟨hgoes, hback, hlast⟩
    · rintro ⟨hgoes, hback, hlast⟩
      obtain ⟨k, m, hfirst, hlast⟩ := goes_append_iff.mp
        ((goes_step_iff hnormal hundotted hes.2 hname.2 hlink.2).mpr ⟨hgoes, hlast⟩)
      exact ⟨k, m, ⟨hfirst, hback⟩, hlast⟩

/-- What is asked of the way along a path, apart from its end: that the system takes the path, that
what it goes back from is there, and where it ends in a lone dot, that this can be looked up. -/
structure Passes (t : FileTree) (p : Path) (left : List Path) (n : Node) : Prop where
  nameable : Nameable p
  back : ∀ r ∈ left, t.Searchable r
  dotted : (spelled p).getLast? = some .here → n.grants .search = true

/-- A path leads to the directory that its text names where no link is gone back from, and what it
goes back from is there. -/
theorem find_fold_iff {p q : Path} {es : List Text} (hp : isAbsolute p = true)
    (hnames : names p = names q ++ es) (hsub : (farthest q es).Sublist p) (hq : q.IsNormal)
    (hdots : Undotted q) (hes : Between es)
    (hlink : ∀ r ∈ leftBy q (es.map Component.ofText), t.isLink r = false) :
    (t.find true p = .ok (.entry l n) ∧ n.isDir = true) ↔
      (t.find true ((es.map Component.ofText).foldl step q : Path) = .ok (.entry l n) ∧
        n.isDir = true) ∧ t.Passes p (leftBy q (es.map Component.ofText)) n := by
  have hnormal := isClosed_isNormal.foldl_step hq hes.noSlash
  have hundotted := isClosed_undotted.foldl_step hdots hes.noSlash
  have hfold (hname : Nameable p) {k : Nat} := @goes_fold_iff t k l q hq hdots es hes
    (fun r hr => hname.of_sublist ((leftBy_sublist hq hes r hr).2.trans hsub)
      (leftBy_sublist hq hes r hr).1) hlink
  rw [find_directory_iff, find_directory_iff]
  simp only [goes_route_iff hp, goes_route_iff hnormal.absolute, hnames,
    getLast?_spelled_of_undotted hundotted, false_imp_iff, and_true]
  constructor
  · rintro ⟨hname, ⟨k, hgoes, hend⟩, hn, hdir⟩
    obtain ⟨hgoes, hback⟩ := (hfold hname).mp hgoes
    refine ⟨⟨hname.of_sublist ((foldl_step_sublist hq hes).trans hsub)
      (ne_nil_of_isAbsolute hnormal.absolute), ⟨k, hgoes⟩, hn, hdir⟩, hname, hback, fun hdot => ?_⟩
    obtain ⟨d, hd, -, hsearch⟩ := hend hdot
    rw [hn] at hd
    cases hd
    exact hsearch
  · rintro ⟨⟨-, ⟨k, hgoes⟩, hn, hdir⟩, hpasses⟩
    exact ⟨hpasses.nameable, ⟨k, (hfold hpasses.nameable).mpr ⟨hgoes, hpasses.back⟩, fun hdot =>
      ⟨n, hn, hdir, hpasses.dotted hdot⟩⟩, hn, hdir⟩

/-- An entry of a directory is at the path that is joined from the two. -/
theorem find_join {p : Path} (hp : p.IsNormal) (hdots : Undotted p) {name : Text}
    (hname : IsName name) (hsize : (Name.ofText name).size ≤ nameLimit)
    (hpath : Nameable (join p name)) (hfind : t.find true p = .ok (.entry l n))
    (hsearch : n.grants .search = true) {m : Node}
    (hentry : n.entry? (Name.ofText name) = some m) :
    t.find false (join p name) = .ok (.entry (Name.ofText name :: l) m) := by
  have hdir : n.isDir = true := Node.isDir_of_entry? hentry
  obtain ⟨-, ⟨k, hgoes⟩, hn, -⟩ := find_directory_iff.mp ⟨hfind, hdir⟩
  have hpass : Passable t.root l := ⟨n, hn, hdir, hsearch⟩
  have hat : t.root.at? (Name.ofText name :: l) = some m := by
    rw [Node.at?_cons, hn]
    exact hentry
  have hundotted := isClosed_undotted.join hdots hname
  rw [← bare_join hp.absolute hname] at hpath ⊢
  refine (find_bare_iff (isAbsolute_join hp.absolute hname) hundotted).mpr ⟨hpath, ?_⟩
  have hroute : routeAlong [name] = [.name (Name.ofText name)] := by
    rw [routeAlong, List.map_singleton, hname.ofText_eq]
    rfl
  rw [names_join hp.absolute hname, routeAlong_append, ← List.cons_append, hroute]
  refine (leads_append_iff (List.cons_ne_nil _ _)).mpr
    ⟨k, l, ((goes_route_iff hp.absolute).mp hgoes).1, ?_⟩
  cases hlink : m.isLink with
  | false => exact .enter hpass hsize hat hlink (.arrived hat)
  | true =>
    cases m with
    | link target changed => exact .link hpass hsize hat rfl
    | _ => cases hlink

end FileTree

end LineShell

import LineShell.Proofs.Files.Back
import LineShell.Proofs.Files.Raise

/-! Paths that are spelled from the root on, name by name. One lies below another by its text just
where the locations that they spell do, and it is destined for the location below. -/

namespace LineShell

namespace Path

open FileTree (Nameable)

/-- The location that an absolute path spells. -/
def spot (p : Path) : Location :=
  ((names p).map Name.ofText).reverse

variable {p q : Path} {n : Text}

theorem IsTidy.routeAlong (h : IsTidy p) :
    FileTree.routeAlong (names p) = p.spot.reverse.map Component.name := by
  rw [FileTree.routeAlong, spot, List.reverse_reverse, List.map_map]
  exact List.map_congr_left fun n hn => by rw [(h.isNormal.isName hn).ofText_eq]; rfl

theorem IsTidy.components (h : IsTidy p) :
    Place.components p = .root :: p.spot.reverse.map .name := by
  rw [Place.components, components_of_isAbsolute h.isNormal.absolute, ← h.routeAlong,
    List.map_cons, List.map_map]
  simp [FileTree.routeAlong, Component.map, Function.comp_def]

theorem IsTidy.undotted (h : IsTidy p) : Undotted p := by
  induction h with
  | root => exact isClosed_undotted.root
  | join _ hn ih => exact isClosed_undotted.join ih hn

theorem IsTidy.walked (h : IsTidy p) : Place.walked p = .root :: p.spot.reverse.map .name := by
  have hbare : bare p = p := by rw [bare, h.dropIdle_reverse, List.reverse_reverse]
  have hwalked := walked_bare h.isNormal.absolute h.undotted
  rwa [hbare, h.routeAlong] at hwalked

theorem spot_join (hp : IsTidy p) (hn : IsName n) :
    spot (join p n) = Name.ofText n :: p.spot := by
  rw [spot, names_join hp.isNormal.absolute hn, spot]
  simp

/-- What is joined to a tidy path is a name in what that path names. -/
theorem IsTidy.under_join (hp : IsTidy p) (hn : IsName n) :
    Place.Under p (Name.ofText n) (Path.join p n) where
  parent := by
    have hsome : parent? (Path.join p n) = some (pop (Path.join p n)) := by
      have hcomponents := components_of_isAbsolute (isAbsolute_join hp.isNormal.absolute hn)
      rw [names_join hp.isNormal.absolute hn] at hcomponents
      rw [pop, parent?, hcomponents]
      simp
    rw [hp.pop_join hn] at hsome
    exact congrArg (Option.map fun q : Path => ({ path := q } : Place)) hsome
  walked := by simp [hp.walked, (hp.join hn).walked, spot_join hp hn]
  components := by simp [hp.components, (hp.join hn).components, spot_join hp hn]

theorem IsTidy.nameable_of_join (hp : IsTidy p) (hn : IsName n) (h : Nameable (Path.join p n)) :
    Nameable p := by
  have hne := ne_nil_of_isAbsolute hp.isNormal.absolute
  obtain ⟨base, hjoin, hbase⟩ := exists_join hne hn
  refine h.of_sublist ?_ hne
  rw [hjoin]
  rcases hbase with rfl | rfl
  · exact List.sublist_append_left ..
  · exact (List.singleton_sublist.mpr List.mem_cons_self).append_left _

/-- A tidy path is below another one just where it spells a location below. -/
theorem IsTidy.below_iff (hp : IsTidy p) (hq : IsTidy q) :
    Place.below p q = true ↔ p.spot <:+ q.spot := by
  have hname : Function.Injective (Component.name : Name → Component Name) :=
    fun _ _ h => Component.name.inj h
  rw [Place.below, hp.components, hq.components, List.isPrefixOf_iff_prefix, List.cons_prefix_cons,
    and_iff_right rfl, ← List.reverse_prefix]
  constructor
  · rintro ⟨rest, hrest⟩
    obtain ⟨start, more, hsplit, hstart, -⟩ := List.map_eq_append_iff.mp hrest.symm
    rw [hname.list_map hstart] at hsplit
    exact ⟨more, hsplit.symm⟩
  · exact fun h => h.map _

end Path

namespace FileTree

open LineShell.Path (IsTidy IsName)
open Place (Under)

variable {t : FileTree} {p : Path} {n : Text} {l : Location}

/-- A walk along names of things that are there misses none of them. -/
theorem walk_names_ne (links : Nat) {trail : Trail} (ns : List Name) (hr : trail.Real t.root)
    (hthere : ∀ x, x <:+ ns.reverse → ∃ m, t.root.at? (x ++ trail.location) = some m)
    (hlink : ∀ x a m, a :: x <:+ ns.reverse → x ≠ [] →
      t.root.at? (x ++ trail.location) = some m → m.isLink = false) :
    t.walk false links trail (ns.map .name) ≠ .error .noEntry := by
  induction ns generalizing trail with
  | nil => simp [walk]
  | cons a ns ih =>
    rw [List.reverse_cons] at hthere hlink
    obtain ⟨m, hm⟩ := hthere [a] (List.suffix_append ..)
    have hentry : Node.entry? (t.standing trail) a = some m := (hr.at?_cons a).symm.trans hm
    rw [List.map_cons, walk]
    simp only [hentry, reduceCtorEq, false_and, if_false]
    split
    case isTrue => simp [Errno.notDirectory, Errno.noEntry]
    split
    case isTrue => simp [Errno.permission, Errno.noEntry]
    split
    case isTrue => simp [Errno.nameTooLong, Errno.noEntry]
    cases hl : m.isLink with
    | true =>
      have hnil : ns = [] := by
        by_contra hne
        obtain ⟨before, b, hsplit⟩ := (List.eq_nil_or_concat' ns.reverse).resolve_left (by simpa)
        rw [hlink [a] b m (hsplit ▸ ⟨before, by simp⟩) (by simp) hm] at hl
        cases hl
      subst hnil
      cases m with
      | link p changed => simp
      | _ => cases hl
    | false =>
      have hcons (x : Location) :
          x ++ a :: Trail.location trail = (x ++ [a]) ++ trail.location := by
        simp
      have hwalk := @ih ((a, m) :: trail) ⟨hm, hr⟩
        (fun x hx => hcons x ▸ hthere (x ++ [a]) (List.suffix_append_self_iff.mpr hx))
        (fun x b m' hx _ hm' => hlink (x ++ [a]) b m'
          (by simpa using List.suffix_append_self_iff.mpr hx) (by simp) (hcons x ▸ hm'))
      cases m with
      | link p changed => cases hl
      | _ => exact hwalk

/-- A path that goes on by names, where no link stands, leads to what the names spell. -/
theorem spot_of_walked {p q : Place} {a b : Location} {n m : Node} {ns : List Name}
    (hp : t.find true p = .ok (.entry a n)) (hq : t.find true q = .ok (.entry b m))
    (hwalk : q.walked = p.walked ++ ns.map .name)
    (hlink : ∀ x m, x <:+ ns.reverse → x ≠ [] → t.root.at? (x ++ a) = some m → m.isLink = false) :
    b = ns.reverse ++ a := by
  by_cases hnil : ns = []
  · subst hnil
    obtain ⟨hname, -⟩ := (find_eq_ok_iff _ _ _ _).mp hp
    obtain ⟨-, hleads⟩ := (find_eq_ok_iff _ _ _ _).mp hq
    rw [hwalk, List.map_nil, List.append_nil] at hleads
    have hsame := (find_eq_ok_iff _ _ _ _).mpr ⟨hname, hleads⟩
    rw [hp] at hsame
    cases hsame
    rfl
  · obtain ⟨-, links, -, hrest⟩ := (find_along_iff hp hwalk (by simpa using hnil)).mp hq
    refine hrest.spot_of_names fun x m hx hm => ?_
    by_cases hxnil : x = []
    · subst hxnil
      rw [List.nil_append, show t.root.at? a = some n from find_holds hp] at hm
      cases hm
      exact isLink_of_find hp
    · exact hlink x m hx hxnil hm

/-- Behind a directory with no link in it, names lead to what is in it. -/
theorem Destined.suffix_of_walked {p q : Place} {a b : Location} {n : Node} {ns : List Name}
    (h : Destined t q b) (hp : t.find true p = .ok (.entry a n))
    (hplain : ∀ x m, t.root.at? (x ++ a) = some m → m.isLink = false)
    (hwalk : q.walked = p.walked ++ ns.map .name) : a <:+ b := by
  obtain ⟨base, k, d, r, hbase, -, hr, rfl, hlink⟩ := h.base
  rcases List.append_eq_append_iff.mp (hr.symm.trans hwalk) with
    ⟨more, hbefore, hafter⟩ | ⟨more, hbefore, hafter⟩
  · -- the path is there as far as a directory above the source
    obtain ⟨zs, ys, hsplit, rfl, -⟩ := List.map_eq_append_iff.mp hafter
    have hz : zs.reverse <:+ r := by
      rw [← List.reverse_reverse r, hsplit, List.reverse_append]
      exact List.suffix_append ..
    rw [spot_of_walked hbase hp hbefore fun x m hx => hlink x m (hx.trans hz)]
    exact List.suffix_append_self_iff.mpr hz
  · -- or as far as one in it
    obtain ⟨zs, ys, -, rfl, -⟩ := List.map_eq_append_iff.mp hafter
    rw [spot_of_walked hp hbase hbefore fun x m _ _ => hplain x m]
    exact (List.suffix_append zs.reverse a).trans (List.suffix_append r _)

/-- Nothing is missing on the way to a name that is there, even if a link is there. -/
theorem Destined.find_ne (h : Destined t p l) (hp : IsTidy p) (hn : IsName n) {m : Node}
    (hm : t.root.at? (Name.ofText n :: l) = some m) :
    t.find false (Path.join p n) ≠ .error (.os .noEntry) := by
  obtain ⟨q, k, d, r, hq, -, hwalk, rfl, hlink⟩ := h.base
  have hend : q.walked.getLast? ≠ some .here := by
    intro hlast
    have hmem : Component.here ∈ Place.walked p :=
      hwalk ▸ List.mem_append_left _ (List.mem_of_getLast? hlast)
    rw [hp.walked] at hmem
    simp at hmem
  obtain ⟨links, hgoes⟩ := ((find_eq_ok_iff t true q _).mp hq).2.goes hend
  have hnames : Place.walked (Path.join p n) =
      q.walked ++ (Name.ofText n :: r).reverse.map .name := by
    rw [(hp.under_join hn).walked, hwalk]
    simp
  obtain ⟨trail, hr, rfl, hrest⟩ := walk_goes false hgoes
    (show (Name.ofText n :: r).reverse.map Component.name ≠ [] by simp)
    (show Trail.Real t.root [] from trivial) rfl
  have hthere (x : Location) (hx : x <:+ Name.ofText n :: r) :
      ∃ m, t.root.at? (x ++ trail.location) = some m := by
    by_contra hnone
    have hnone := Option.eq_none_iff_forall_ne_some.mpr fun m hm => hnone ⟨m, hm⟩
    exact Node.not_suffix_of_none hnone hm (List.suffix_append_self_iff.mpr hx)
  have hne := walk_names_ne links (Name.ofText n :: r).reverse hr
    (by rwa [List.reverse_reverse]) (by
      rw [List.reverse_reverse]
      intro x a m hx hne hm
      refine hlink x m ?_ hne hm
      rcases List.suffix_cons_iff.mp hx with hx | hx
      · exact (List.cons.inj hx).2 ▸ List.suffix_refl _
      · exact (List.suffix_cons a x).trans hx)
  have hsize : Place.size (Path.join p n) ≠ 0 :=
    Place.size_ne_zero (Path.ne_nil_of_isAbsolute (hp.join hn).isNormal.absolute)
  intro hfind
  rw [find, if_neg hsize, hnames, hrest] at hfind
  split_ifs at hfind
  · cases hfind
  · cases hfind
  · cases hends : t.walk false links trail ((Name.ofText n :: r).reverse.map .name) with
    | ok target => rw [hends] at hfind; cases hfind
    | error e =>
      rw [hends] at hfind
      cases hfind
      exact hne hends

/-- A path from the root that is destined for nothing is made nothing of: no directory comes, and
the system tells why. -/
theorem createDirs_placeless (hp : IsTidy p) (hroot : Passable t.root [])
    (hno : ∀ l, ¬ Destined t p l) (now : Time) {fuel : Nat}
    (hfuel : (Place.components p).length < fuel) (missing : List Place) :
    ∃ e, t.createDirs now missing (upFrom fuel p) = (t, some e) := by
  have hfound {p : Path} (hno : ∀ l, ¬ Destined t p l) : t.isDir p = false := by
    by_contra hdir
    obtain ⟨l, d, hfind, hd⟩ := find_of_isDir (Bool.not_eq_false _ ▸ hdir)
    exact hno l (.found hfind hd)
  induction hp generalizing fuel missing with
  | root =>
    obtain ⟨d, hd, hdir, -⟩ := id hroot
    refine absurd (.found ?_ hdir) (hno [])
    exact (find_eq_ok_iff _ _ _ _).mpr ⟨by decide, .root hroot (.arrived hd)⟩
  | @join above n hp hn ih =>
    have hunder := hp.under_join hn
    obtain ⟨fuel, rfl⟩ : ∃ k, fuel = k + 1 := ⟨fuel - 1, by omega⟩
    rw [hunder.components, List.length_append, List.length_singleton] at hfuel
    rw [upFrom, hunder.parent]
    simp only
    rw [createDirs]
    split
    case h_1 t' hmade =>
      obtain ⟨parent, name, hfind, -, -⟩ := createDir_eq_ok hmade
      exact absurd (Destined.of_vacant hunder (hp.nameable_of_join hn) hfind) (hno _)
    case h_2 e hmade =>
      split_ifs with he hdir
      · subst he
        refine ih (fun l hl => hno _ (.under hl hunder (hp.nameable_of_join hn) ?_)) (by omega) _
        intro m hm
        by_contra hlink
        exact hl.find_ne hp hn hm (find_of_createDir_noEntry hmade)
      · rw [hfound hno] at hdir
        cases hdir
      · exact ⟨e, rfl⟩

theorem createDirAll_placeless (hp : IsTidy p) (hroot : Passable t.root [])
    (hno : ∀ l, ¬ Destined t p l) (now : Time) : ∃ e, t.createDirAll now p = (t, some e) :=
  createDirs_placeless hp hroot hno now (Nat.lt_succ_self _) []

/-- Whatever is found by a path from the root, the root is gone through. -/
theorem passable_of_find {follow : Bool} {target : Target} (hp : IsTidy p)
    (h : t.find follow p = .ok target) : Passable t.root [] := by
  have hleads := ((find_eq_ok_iff _ _ _ _).mp h).2
  rw [hp.walked] at hleads
  cases hleads with
  | root hroot _ => exact hroot

end FileTree

end LineShell

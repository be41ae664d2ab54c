import LineShell.Proofs.Files.Back

/-! Paths below the home directory. What stands behind a tilde and a slash is walked from the home
directory on, unless it begins with another slash: then the walk begins at the root, and both walks
come to the same path only where the one from the home directory goes back to the root as well. -/

namespace LineShell.Path

/-- Whether a walk from a directory of `depth` names goes back to the root at some point. -/
def surfaces : Nat → List Text → Bool
  | 0, _ => true
  | _ + 1, [] => false
  | depth + 1, n :: ns => surfaces (if n = ['.', '.'] then depth else depth + 2) ns

/-- Where a walk along what stands between the slashes of a path comes to. -/
def walk (reached : Path) (ns : List Text) : Path :=
  (ns.map Component.ofText).foldl step reached

section Walk

variable {p q : Path} {n : Text} {ns : List Text}

theorem walk_up (p : Path) (ns : List Text) : walk p (['.', '.'] :: ns) = walk (pop p) ns :=
  rfl

theorem walk_name (hn : IsName n) (p : Path) (ns : List Text) :
    walk p (n :: ns) = walk (join p n) ns := by
  rw [walk, List.map_cons, hn.ofText_eq]
  rfl

theorem walk_append (p : Path) (a b : List Text) : walk p (a ++ b) = walk (walk p a) b := by
  rw [walk, List.map_append, List.foldl_append]
  rfl

theorem isName_or_of_mem_names {t : Path} : ∀ n ∈ names t, IsName n ∨ n = ['.', '.'] := by
  intro n hn
  by_cases hup : n = ['.', '.']
  · exact .inr hup
  · obtain ⟨-, hnil, hdot⟩ := mem_names_iff.mp hn
    exact .inl ⟨hnil, slash_notMem_of_mem_names hn, hdot, hup⟩

theorem IsTidy.walk_names (h : IsTidy p) : walk ['/'] (names p) = p := by
  have hnames : (names p).map Component.ofText = (names p).map .name :=
    List.map_congr_left fun n hn => (h.isNormal.isName hn).ofText_eq
  rw [walk, hnames, List.foldl_map]
  exact h.foldl_names

theorem IsTidy.eq_root (h : IsTidy p) (hnames : names p = []) : p = ['/'] := by
  rw [← h.walk_names, hnames]
  rfl

private theorem exists_depth {above : List Text} (hnames : names p = above ++ names q)
    (habove : above ≠ []) : ∃ depth, (names p).length = depth + 1 :=
  Nat.exists_eq_succ_of_ne_zero (by simp [hnames, habove])

/-- Two walks along the same names, the one from a directory `above` further down than the other,
come to the same path just where the lower one goes back to the root. -/
theorem walk_eq_iff {above : List Text} (hp : IsTidy p) (hq : IsTidy q)
    (hnames : names p = above ++ names q) (habove : above ≠ [])
    (hns : ∀ n ∈ ns, IsName n ∨ n = ['.', '.']) :
    walk p ns = walk q ns ↔ surfaces (names p).length ns = true := by
  induction ns generalizing p q above with
  | nil =>
    have hne : p ≠ q := by
      rintro rfl
      exact habove (List.append_left_eq_self.mp hnames.symm)
    obtain ⟨depth, hdepth⟩ := exists_depth hnames habove
    rw [hdepth]
    exact iff_of_false hne (by simp [surfaces])
  | cons n ns ih =>
    rw [List.forall_mem_cons] at hns
    obtain ⟨depth, hdepth⟩ := exists_depth hnames habove
    rw [hdepth, surfaces]
    rcases hns.1 with hn | rfl
    · have hjoin : names (join p n) = above ++ names (join q n) := by
        rw [names_join hp.isNormal.absolute hn, names_join hq.isNormal.absolute hn, hnames,
          List.append_assoc]
      have hlength : (names (join p n)).length = depth + 2 := by
        rw [names_join hp.isNormal.absolute hn, List.length_append, hdepth]
        rfl
      rw [walk_name hn, walk_name hn, if_neg hn.2.2.2, ← hlength]
      exact ih (hp.join hn) (hq.join hn) hjoin habove hns.2
    · have hp' := isClosed_isTidy.pop hp
      have hq' := isClosed_isTidy.pop hq
      have hpop := names_pop hp.isNormal.absolute
      have hlength : (names (pop p)).length = depth := by
        rw [hpop, List.length_dropLast, hdepth]
        rfl
      rw [walk_up, walk_up, if_pos rfl, ← hlength]
      by_cases hroot : names q = []
      · -- the upper walk stays at the root, and the lower one comes nearer to it
        have hstays : names (pop q) = [] := by
          rw [names_pop hq.isNormal.absolute, hroot]
          rfl
        rw [hnames, hroot, List.append_nil] at hpop
        by_cases hmet : above.dropLast = []
        · rw [hmet] at hpop
          rw [hp'.eq_root hpop, hq'.eq_root hstays]
          exact iff_of_true rfl (by simp [surfaces])
        · exact ih hp' hq' (by rw [hpop, hstays, List.append_nil]) hmet hns.2
      · have hboth : names (pop p) = above ++ names (pop q) := by
          rw [hpop, hnames, List.dropLast_append_of_ne_nil hroot,
            names_pop hq.isNormal.absolute]
        exact ih hp' hq' hboth habove hns.2

end Walk

section Home

variable {home cwd p : Path}

theorem resolve_tilde (hhome : IsTidy home) (cwd p : Path) :
    resolve (some home) cwd ('~' :: '/' :: p) = walk (start home p) (names p) := by
  have habs : isAbsolute (join home p) = true :=
    isAbsolute_join_of_isAbsolute hhome.isNormal.absolute
  have hstart : IsTidy (start home p) := isClosed_isTidy.start hhome p
  rw [resolve, if_neg (by simp), show expandTilde (some home) ('~' :: '/' :: p) = join home p from
    rfl, foldl_components, if_pos habs, names_join_start hhome.isNormal.absolute, ← walk,
    walk_append, hstart.walk_names]

/-- A path behind a tilde and a slash leads where its components lead from the home directory,
unless it is absolute and the walk from there stays below the root. -/
theorem resolve_tilde_eq_iff (hhome : IsTidy home) (cwd p : Path) :
    resolve (some home) cwd ('~' :: '/' :: p) = walk home (names p) ↔
      isAbsolute p = false ∨ surfaces (names home).length (names p) = true := by
  rw [resolve_tilde hhome, start]
  cases habs : isAbsolute p with
  | false => exact iff_of_true rfl (.inl rfl)
  | true =>
    rw [if_pos rfl, eq_comm]
    by_cases hroot : names home = []
    · rw [hhome.eq_root hroot]
      exact iff_of_true rfl (.inr (by simp [surfaces]))
    · rw [walk_eq_iff hhome .root (List.append_nil _).symm hroot isName_or_of_mem_names]
      simp

/-- The home directory `/home/user`. -/
def userHome : Path :=
  ['/', 'h', 'o', 'm', 'e', '/', 'u', 's', 'e', 'r']

theorem isTidy_userHome : IsTidy userHome :=
  .join (p := "/home".toList) (n := "user".toList) (.join (n := "home".toList) .root (by decide))
    (by decide)

theorem resolve_tilde_eq_iff_userHome :
    IsTidy userHome ∧
      resolve (some userHome) ['/'] "~/../a/./b//".toList =
        walk userHome (names "../a/./b//".toList) ∧
      resolve (some userHome) ['/'] "~//a/../../../b".toList =
        walk userHome (names "/a/../../../b".toList) := by
  have h := resolve_tilde_eq_iff isTidy_userHome ['/']
  exact ⟨isTidy_userHome, (h "../a/./b//".toList).mpr (.inl (by decide)),
    (h "/a/../../../b".toList).mpr (.inr (by decide))⟩

/-- A second slash behind the tilde leads out of the home directory. -/
theorem resolve_tilde_twoSlashes :
    resolve (some userHome) ['/'] "~//x".toList = "/x".toList ∧
      walk userHome (names "/x".toList) = "/home/user/x".toList := by
  decide

end Home

end LineShell.Path

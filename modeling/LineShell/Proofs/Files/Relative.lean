import LineShell.Proofs.Files.Tilde

/-! What is left of a path behind the components of another one. Each component is cut off by the
number of its characters, so the cuts have to fall between names. -/

namespace LineShell.Path

/-- A path without one of the components that it begins with. -/
def dropped (p : Path) : Component Text → Path
  | .root | .here => p.drop 1
  | c => (trimStart p).drop c.text.length

theorem relativeTo?_eq (base p : Path) :
    relativeTo? base p =
      if below base p then some (bare (trimStart ((components base).foldl dropped p))) else none :=
  rfl

section TrimStart

variable {t n : Text} {ns rest : List Text}

theorem names_cons_slash (p : Path) : names ('/' :: p) = names p :=
  names_append_slash [] p

theorem names_trimStart (t : Text) : names (trimStart t) = names t := by
  fun_induction trimStart t with
  | case1 rest ih => rw [ih, names_cons_slash]
  | case2 => decide
  | case3 rest ih =>
    rw [ih, ← List.singleton_append (l := '/' :: rest), names_append_slash]
    rfl
  | case4 => rfl

/-- What `trimStart` leaves begins with a name, unless it is nothing. -/
theorem trimStart_eq (t : Text) :
    trimStart t = [] ∨ ∃ n tail, n ≠ [] ∧ isAbsolute n = false ∧ trimStart t = n ++ tail ∧
      names (n ++ tail) = n :: names tail := by
  fun_induction trimStart t with
  | case1 rest ih => exact ih
  | case2 => exact .inl rfl
  | case3 rest ih => exact ih
  | case4 t hslash hdot hstart =>
    by_cases hmem : '/' ∈ t
    · obtain ⟨w, tail, rfl, hw⟩ := List.eq_append_cons_of_mem hmem
      have hnil : w ≠ [] := by
        rintro rfl
        exact hslash tail rfl
      have hlone : w ≠ ['.'] := by
        rintro rfl
        exact hstart tail rfl
      have hname := names_eq_singleton hw hnil hlone
      refine .inr ⟨w, '/' :: tail, hnil, isAbsolute_eq_false_of_notMem hw, rfl, ?_⟩
      rw [names_append_slash, names_cons_slash, hname]
      rfl
    · by_cases hnil : t = []
      · exact .inl hnil
      · have hname := names_eq_singleton hmem hnil fun h => hdot h
        refine .inr ⟨t, [], hnil, isAbsolute_eq_false_of_notMem hmem, ?_, ?_⟩
        · rw [List.append_nil]
        · rw [List.append_nil, hname, names_nil]

theorem isAbsolute_trimStart (t : Text) : isAbsolute (trimStart t) = false := by
  obtain hnil | ⟨n, tail, hne, habs, htrim, -⟩ := trimStart_eq t
  · rw [hnil]
    rfl
  · obtain ⟨c, n, rfl⟩ := List.exists_cons_of_ne_nil hne
    rw [htrim]
    exact habs

theorem trimStart_eq_nil_iff : trimStart t = [] ↔ names t = [] := by
  constructor
  · intro h
    rw [← names_trimStart, h, names_nil]
  · intro h
    obtain hnil | ⟨n, tail, -, -, htrim, hnames⟩ := trimStart_eq t
    · exact hnil
    · rw [← names_trimStart, htrim, hnames] at h
      cases h

/-- The first name is cut off, and no part of any other. -/
theorem names_dropped (hn : IsName n) (h : names t = n :: rest) :
    names (dropped t (.name n)) = rest := by
  obtain hnil | ⟨m, tail, -, -, htrim, hnames⟩ := trimStart_eq t
  · rw [trimStart_eq_nil_iff.mp hnil] at h
    cases h
  · rw [← names_trimStart, htrim, hnames] at h
    obtain ⟨rfl, rfl⟩ := List.cons.inj h
    rw [dropped, htrim, Component.text, List.drop_left]
    all_goals rintro ⟨⟩

theorem names_foldl_dropped (hns : ∀ n ∈ ns, IsName n) (h : names t = ns ++ rest) :
    names ((ns.map .name).foldl dropped t) = rest := by
  induction ns generalizing t with
  | nil => exact h
  | cons n ns ih =>
    rw [List.forall_mem_cons] at hns
    exact ih hns.2 (names_dropped hns.1 h)

end TrimStart

section Relative

variable {base p : Path}

theorem IsNormal.components_eq (h : IsNormal p) :
    components p = .root :: (names p).map .name := by
  rw [components_of_isAbsolute h.absolute]
  exact congrArg _ (List.map_congr_left fun n hn => (h.isName hn).ofText_eq)

/-- A path is below another one if its names begin with those of the other, name by name. -/
theorem below_iff (hbase : IsNormal base) (hp : IsNormal p) :
    below base p = true ↔ names base <+: names p := by
  rw [below, hbase.components_eq, hp.components_eq, List.isPrefixOf_iff_prefix,
    List.cons_prefix_cons, and_iff_right rfl]
  constructor
  · rintro ⟨rest, h⟩
    obtain ⟨ns, ms, hsplit, hns, -⟩ := List.map_eq_append_iff.mp h.symm
    have hsame := List.map_injective_iff.mpr (fun _ _ => Component.name.inj) hns
    exact ⟨ms, by rw [hsplit, hsame]⟩
  · exact fun h => h.map _

/-- What is left of a path behind another one is relative, and has the names that follow. -/
theorem exists_relativeTo? (hbase : IsNormal base) (hp : IsNormal p)
    (h : names base <+: names p) :
    ∃ rest, relativeTo? base p = some rest ∧ names p = names base ++ names rest ∧
      isAbsolute rest = false := by
  obtain ⟨ns, hns⟩ := h
  obtain ⟨c, tail, rfl⟩ := List.exists_cons_of_ne_nil (ne_nil_of_isAbsolute hp.absolute)
  obtain rfl : c = '/' := by simpa [isAbsolute] using hp.absolute
  have hcut : names ((components base).foldl dropped ('/' :: tail)) = ns := by
    rw [hbase.components_eq]
    apply names_foldl_dropped fun n => hbase.isName
    rw [hns, names_cons_slash]
    rfl
  refine ⟨_, by rw [relativeTo?_eq, if_pos ((below_iff hbase hp).mpr ⟨ns, hns⟩)], ?_, ?_⟩
  · rw [names_bare, names_trimStart, hcut, hns]
  · have hhead := isAbsolute_trimStart ((components base).foldl dropped ('/' :: tail))
    rw [isAbsolute, bare, List.head?_reverse, getLast?_dropIdle, List.getLast?_reverse]
    exact hhead

theorem relativeTo?_eq_none (hbase : IsNormal base) (hp : IsNormal p)
    (h : ¬ names base <+: names p) : relativeTo? base p = none := by
  rw [relativeTo?_eq, if_neg (mt (below_iff hbase hp).mp h)]

/-- A text that is expanded to an absolute path leads where that path leads. -/
theorem resolve_of_expandTilde {home : Option Path} {typed : Text} (hne : typed ≠ [])
    (habs : isAbsolute (expandTilde home typed) = true) (cwd : Path) :
    resolve home cwd typed = walk ['/'] (names (expandTilde home typed)) := by
  rw [resolve, if_neg (by simpa using hne), foldl_components, if_pos habs]
  rfl

end Relative

end LineShell.Path

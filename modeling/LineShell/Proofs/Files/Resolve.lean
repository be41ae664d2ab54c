import LineShell.Files.Path

/-! Where the walk through a typed path comes to. A walk takes only three kinds of steps: to the
root, to a name below, and back over the last component; what each of them keeps is kept by the
whole walk. -/

namespace LineShell.Path

/-- What stands between the slashes of a path, without lone dots. -/
def names (p : Path) : List Text :=
  (p.splitOn '/').filter fun n => n ≠ [] ∧ n ≠ ['.']

/-- A name as it can stand between two slashes. -/
def IsName (n : Text) : Prop :=
  n ≠ [] ∧ '/' ∉ n ∧ n ≠ ['.'] ∧ n ≠ ['.', '.']

instance (n : Text) : Decidable (IsName n) := by
  unfold IsName; infer_instance

/-- An absolute path without `.` and `..` among its components. -/
structure IsNormal (p : Path) : Prop where
  absolute : isAbsolute p = true
  noHere : .here ∉ components p
  noUp : .up ∉ components p

/-- A path without a dot that stands alone between its slashes, not even where it is no
component. -/
def Undotted (p : Path) : Prop :=
  ['.'] ∉ p.splitOn '/'

instance (p : Path) : Decidable (Undotted p) := by
  unfold Undotted; infer_instance

/-- A path spelled from the root on, by one name after another. -/
inductive IsTidy : Path → Prop
  | root : IsTidy ['/']
  | join {p : Path} {n : Text} (hp : IsTidy p) (hn : IsName n) : IsTidy (join p n)

/-- A kind of paths that no step of a walk leads out of. -/
structure IsClosed (P : Path → Prop) : Prop where
  root : P ['/']
  join {p : Path} {n : Text} (hp : P p) (hn : IsName n) : P (join p n)
  pop {p : Path} (hp : P p) : P (pop p)

section Names

theorem slash_notMem_of_mem_splitOn (p : Path) : ∀ n ∈ p.splitOn '/', '/' ∉ n := by
  induction p with
  | nil => simp
  | cons c p ih =>
    rw [List.splitOn_cons_eq_if_modifyHead]
    split
    case isTrue => simpa using ih
    case isFalse hc =>
      obtain ⟨first, rest, hsplit⟩ := List.exists_cons_of_ne_nil (List.splitOn_ne_nil '/' p)
      rw [hsplit] at ih ⊢
      rw [List.forall_mem_cons] at ih
      rw [List.modifyHead_cons, List.forall_mem_cons]
      have hc : '/' ≠ c := by rintro rfl; exact hc (by decide)
      exact ⟨by simp [hc, ih.1], ih.2⟩

theorem mem_names_iff {p : Path} {n : Text} :
    n ∈ names p ↔ n ∈ p.splitOn '/' ∧ n ≠ [] ∧ n ≠ ['.'] := by
  simp [names]

theorem slash_notMem_of_mem_names {p : Path} {n : Text} (h : n ∈ names p) : '/' ∉ n :=
  slash_notMem_of_mem_splitOn p n (mem_names_iff.mp h).1

@[simp]
theorem names_root : names ['/'] = [] := by
  decide

@[simp]
theorem names_nil : names [] = [] := by
  decide

@[simp]
theorem names_append_slash (p q : Path) : names (p ++ '/' :: q) = names p ++ names q := by
  rw [names, List.splitOn_append_cons_self, List.filter_append]
  rfl

theorem names_eq_singleton {n : Text} (hslash : '/' ∉ n) (hnil : n ≠ []) (hdot : n ≠ ['.']) :
    names n = [n] := by
  rw [names, List.splitOn_eq_singleton hslash]
  simp [hnil, hdot]

theorem IsName.names_eq {n : Text} (h : IsName n) : names n = [n] :=
  names_eq_singleton h.2.1 h.1 h.2.2.1

theorem isAbsolute_eq_false_of_notMem {n : Text} (h : '/' ∉ n) : isAbsolute n = false := by
  cases n with
  | nil => rfl
  | cons c n =>
    have hc : c ≠ '/' := fun hc => h (hc ▸ List.mem_cons_self)
    simp [isAbsolute, hc]

theorem IsName.isAbsolute_eq_false {n : Text} (h : IsName n) : isAbsolute n = false :=
  isAbsolute_eq_false_of_notMem h.2.1

theorem IsName.ofText_eq {n : Text} (h : IsName n) : Component.ofText n = .name n := by
  rw [Component.ofText, if_neg h.2.2.1, if_neg h.2.2.2]

end Names

section Components

theorem ofText_eq_here_iff {n : Text} : Component.ofText n = .here ↔ n = ['.'] := by
  rw [Component.ofText]
  split
  case isTrue h => exact iff_of_true rfl h
  case isFalse h => exact iff_of_false (by split <;> rintro ⟨⟩) h

/-- The components without lone dots are the root and what stands between the slashes. -/
theorem filter_spelled (p : Path) :
    (spelled p).filter (· ≠ .here) =
      (if isAbsolute p then [.root] else []) ++ (names p).map Component.ofText := by
  have hinner (ns : List Text) :
      ((ns.filter (!·.isEmpty)).map Component.ofText).filter (· ≠ .here) =
        (ns.filter fun n => n ≠ [] ∧ n ≠ ['.']).map Component.ofText := by
    rw [List.filter_map, List.filter_filter]
    congr 1
    refine List.filter_congr fun n _ => ?_
    simp only [Function.comp_apply, ne_eq, ofText_eq_here_iff]
    cases n <;> simp
  rw [spelled, List.filter_append, hinner, names]
  split <;> simp

theorem filter_allComponents (p : Path) :
    (allComponents p).filter (· ≠ .here) =
      (if isAbsolute p then [.root] else []) ++ (names p).map Component.ofText := by
  rw [allComponents, List.filter_append, filter_spelled]
  split <;> simp

theorem components_of_isAbsolute {p : Path} (h : isAbsolute p = true) :
    components p = .root :: (names p).map Component.ofText := by
  have hfilter := filter_allComponents p
  rw [components]
  rw [if_pos h] at hfilter
  rw [allComponents, spelled, if_pos h] at hfilter ⊢
  simpa using hfilter

theorem foldl_step_filter (cs : List (Component Text)) (r : Path) :
    (cs.filter (· ≠ .here)).foldl step r = cs.foldl step r := by
  induction cs generalizing r with
  | nil => rfl
  | cons c cs ih => cases c <;> simpa [step] using ih _

/-- What a walk along a path goes through. -/
theorem foldl_components (p r : Path) :
    (components p).foldl step r =
      ((names p).map Component.ofText).foldl step (if isAbsolute p then ['/'] else r) := by
  have hall : (components p).foldl step r = (allComponents p).foldl step r := by
    rw [components]
    split
    case h_1 first rest h => rw [h, List.foldl_cons, List.foldl_cons, foldl_step_filter]
    case h_2 h => rw [h]
  rw [hall, ← foldl_step_filter, filter_allComponents]
  split <;> rfl

theorem isNormal_iff {p : Path} :
    IsNormal p ↔ isAbsolute p = true ∧ ['.', '.'] ∉ names p := by
  have hup {n : Text} (hn : n ≠ ['.']) : Component.ofText n = .up ↔ n = ['.', '.'] := by
    rw [Component.ofText, if_neg hn]
    split <;> simp_all
  constructor
  · intro h
    refine ⟨h.absolute, fun hmem => h.noUp ?_⟩
    rw [components_of_isAbsolute h.absolute]
    exact List.mem_cons_of_mem _ (List.mem_map.mpr ⟨_, hmem, by decide⟩)
  · rintro ⟨habs, hmem⟩
    refine ⟨habs, ?_, ?_⟩ <;> rw [components_of_isAbsolute habs] <;>
      simp only [List.mem_cons, List.mem_map, reduceCtorEq, false_or, not_exists, not_and]
    · intro n hn hhere
      exact (mem_names_iff.mp hn).2.2 (ofText_eq_here_iff.mp hhere)
    · intro n hn h
      exact hmem ((hup (mem_names_iff.mp hn).2.2).mp h ▸ hn)

theorem IsNormal.isName {p : Path} (h : IsNormal p) {n : Text} (hn : n ∈ names p) : IsName n :=
  ⟨(mem_names_iff.mp hn).2.1, slash_notMem_of_mem_names hn, (mem_names_iff.mp hn).2.2,
    fun hup => (isNormal_iff.mp h).2 (hup ▸ hn)⟩

end Components

section Join

variable {p : Path} {n : Text}

/-- A name is put behind a path with one slash between them. -/
theorem exists_join (hp : p ≠ []) (hn : IsName n) :
    ∃ base, join p n = base ++ '/' :: n ∧ (p = base ∨ p = base ++ ['/']) := by
  rw [join, if_neg (by simp [hn.isAbsolute_eq_false])]
  by_cases hlast : p.getLast? = some '/'
  · obtain ⟨base, rfl⟩ := List.getLast?_eq_some_iff.mp hlast
    exact ⟨base, by simp, .inr rfl⟩
  · exact ⟨p, by simp [hp, hlast], .inl rfl⟩

theorem ne_nil_of_isAbsolute (hp : isAbsolute p = true) : p ≠ [] := by
  rintro rfl
  exact absurd hp (by decide)

theorem isAbsolute_append (hp : isAbsolute p = true) (t : Text) : isAbsolute (p ++ t) = true := by
  obtain ⟨c, p, rfl⟩ := List.exists_cons_of_ne_nil (ne_nil_of_isAbsolute hp)
  exact hp

theorem names_join (hp : isAbsolute p = true) (hn : IsName n) :
    names (join p n) = names p ++ [n] := by
  obtain ⟨base, hjoin, rfl | rfl⟩ := exists_join (ne_nil_of_isAbsolute hp) hn
  · rw [hjoin, names_append_slash, hn.names_eq]
  · rw [hjoin, names_append_slash, hn.names_eq, names_append_slash, names_nil, List.append_nil]

theorem isAbsolute_join (hp : isAbsolute p = true) (hn : IsName n) :
    isAbsolute (join p n) = true := by
  obtain ⟨base, hjoin, rfl | rfl⟩ := exists_join (ne_nil_of_isAbsolute hp) hn
  · exact hjoin ▸ isAbsolute_append hp _
  · rw [hjoin, List.append_cons]
    exact isAbsolute_append hp n

end Join

section Pop

theorem getLast?_dropIdle (t : Text) : (dropIdle t).getLast? = t.getLast? := by
  fun_induction dropIdle t <;> simp_all

theorem names_dropIdle (t : Text) : names (dropIdle t).reverse = names t.reverse := by
  fun_induction dropIdle t with
  | case1 c rest ih =>
    rw [ih, List.reverse_cons (a := '/'), names_append_slash, names_nil, List.append_nil]
  | case2 c rest ih =>
    have hdot : names ['.'] = [] := by decide
    rw [ih, List.reverse_cons (a := '.'), List.reverse_cons (a := '/'), List.append_assoc,
      List.singleton_append, names_append_slash, names_append_slash, hdot, names_nil]
  | case3 => decide
  | case4 => rfl

/-- What `dropIdle` leaves of an absolute path ends in a name, unless it is the root alone. -/
theorem dropIdle_eq (t : Text) (h : t.getLast? = some '/') :
    dropIdle t = ['/'] ∨
      ∃ n rest, names n = [n] ∧ '/' ∉ n ∧ dropIdle t = n.reverse ++ '/' :: rest := by
  fun_induction dropIdle t with
  | case1 c rest ih => exact ih (by simpa using h)
  | case2 c rest ih => exact ih (by simpa using h)
  | case3 => exact .inl rfl
  | case4 t hslash hdot hlone =>
    obtain ⟨w, rest, rfl, hw⟩ := List.eq_append_cons_of_mem (List.mem_of_getLast? h)
    by_cases hnil : w = []
    · subst hnil
      cases rest with
      | nil => exact .inl rfl
      | cons c rest => exact absurd rfl (hslash c rest)
    · have hdot : w ≠ ['.'] := by
        rintro rfl
        cases rest with
        | nil => exact hlone rfl
        | cons c rest => exact hdot c rest rfl
      have hw' : '/' ∉ w.reverse := by simpa using hw
      have hdot' : w.reverse ≠ ['.'] := fun h => hdot (by rw [← w.reverse_reverse, h]; rfl)
      exact .inr ⟨w.reverse, rest, names_eq_singleton hw' (by simpa using hnil) hdot', hw',
        by rw [List.reverse_reverse]⟩

/-- A name at the end is no part of what `dropIdle` drops. -/
theorem dropIdle_name {n : Text} (hn : IsName n) (rest : Text) :
    dropIdle (n.reverse ++ '/' :: rest) = n.reverse ++ '/' :: rest := by
  obtain ⟨hnil, hslash, hdot, -⟩ := hn
  obtain ⟨c, w, hw⟩ := List.exists_cons_of_ne_nil (List.reverse_ne_nil_iff.mpr hnil)
  have hc : c ≠ '/' := by
    rintro rfl
    exact hslash (List.mem_reverse.mp (hw ▸ List.mem_cons_self))
  have hlone (tail : Text) : c :: (w ++ '/' :: rest) ≠ '.' :: '/' :: tail := by
    intro h
    cases w with
    | nil => exact hdot (List.reverse_eq_iff.mp (by rw [hw, (List.cons.inj h).1]))
    | cons d w =>
      have hd : d = '/' := (List.cons.inj (List.cons.inj h).2).1
      exact hslash (List.mem_reverse.mp (by simp [hw, hd]))
  rw [hw, List.cons_append, dropIdle.eq_def]
  split
  case h_1 h => exact absurd (List.cons.inj h).1 hc
  case h_2 h => exact absurd h (hlone _)
  case h_3 h => exact absurd h (hlone _)
  case h_4 => rfl

/-- What is left of a path that ends in a name, once slashes and lone dots behind it are dropped. -/
theorem pop_of_dropIdle {p base n : Text} (hp : isAbsolute p = true) (hn : names n = [n])
    (hslash : '/' ∉ n) (hdrop : dropIdle p.reverse = n.reverse ++ '/' :: base.reverse) :
    names p = names base ++ [n] ∧ pop p = (dropIdle ('/' :: base.reverse)).reverse := by
  have hnames : names p = names base ++ [n] := by
    rw [← List.reverse_reverse p, ← names_dropIdle, hdrop]
    simp [hn]
  have hcomponents := components_of_isAbsolute hp
  rw [hnames] at hcomponents
  have hparent :
      parent? p = some (dropIdle ((dropIdle p.reverse).dropWhile (· ≠ '/'))).reverse := by
    simp [parent?, hcomponents]
  have hkept : (n.reverse ++ '/' :: base.reverse).dropWhile (· ≠ '/') = '/' :: base.reverse := by
    rw [List.dropWhile_append_of_pos]
    · simp
    · rintro c hc
      simpa using fun h : c = '/' => hslash (List.mem_reverse.mp (h ▸ hc))
  exact ⟨hnames, by rw [pop, hparent, hdrop, hkept]; rfl⟩

/-- The last name of an absolute path is dropped, with what idles in front of it. -/
theorem pop_eq {p : Path} (hp : isAbsolute p = true) :
    (names p = [] ∧ pop p = p) ∨
      ∃ base n, names p = names base ++ [n] ∧ isAbsolute (base ++ ['/']) = true ∧
        pop p = (dropIdle ('/' :: base.reverse)).reverse := by
  have hlast : p.reverse.getLast? = some '/' := by
    simpa [isAbsolute] using hp
  rcases dropIdle_eq p.reverse hlast with hdrop | ⟨n, rest, hn, hslash, hdrop⟩
  · have hnil : names p = [] := by
      rw [← List.reverse_reverse p, ← names_dropIdle, hdrop]
      exact names_root
    have hcomponents := components_of_isAbsolute hp
    rw [hnil] at hcomponents
    exact .inl ⟨hnil, by simp [pop, parent?, hcomponents]⟩
  · have habs : isAbsolute (rest.reverse ++ ['/']) = true := by
      have hkept := getLast?_dropIdle p.reverse
      rw [hdrop, hlast] at hkept
      simpa [isAbsolute, List.getLast?_cons] using hkept
    rw [← rest.reverse_reverse] at hdrop
    obtain ⟨hnames, hpop⟩ := pop_of_dropIdle hp hn hslash hdrop
    exact .inr ⟨rest.reverse, n, hnames, habs, hpop⟩

theorem names_pop {p : Path} (hp : isAbsolute p = true) : names (pop p) = (names p).dropLast := by
  rcases pop_eq hp with ⟨hnil, hpop⟩ | ⟨base, n, hnames, -, hpop⟩
  · rw [hpop, hnil]
    rfl
  · rw [hpop, names_dropIdle, hnames, List.dropLast_concat, List.reverse_cons, List.reverse_reverse,
      names_append_slash, names_nil, List.append_nil]

theorem isAbsolute_pop {p : Path} (hp : isAbsolute p = true) : isAbsolute (pop p) = true := by
  rcases pop_eq hp with ⟨-, hpop⟩ | ⟨base, n, -, habs, hpop⟩
  · rwa [hpop]
  · rw [isAbsolute] at habs ⊢
    rw [hpop, List.head?_reverse, getLast?_dropIdle, ← List.head?_reverse, List.reverse_cons,
      List.reverse_reverse]
    exact habs

end Pop

section Closed

theorem isClosed_isNormal : IsClosed IsNormal where
  root := isNormal_iff.mpr ⟨by decide, by decide⟩
  join hp hn := by
    rw [isNormal_iff] at hp ⊢
    refine ⟨isAbsolute_join hp.1 hn, ?_⟩
    rw [names_join hp.1 hn, List.mem_append, List.mem_singleton]
    exact not_or.mpr ⟨hp.2, fun h => hn.2.2.2 h.symm⟩
  pop hp := by
    rw [isNormal_iff] at hp ⊢
    refine ⟨isAbsolute_pop hp.1, ?_⟩
    rw [names_pop hp.1]
    exact fun h => hp.2 (List.dropLast_subset _ h)

theorem undotted_append_slash {p q : Path} :
    Undotted (p ++ '/' :: q) ↔ Undotted p ∧ Undotted q := by
  rw [Undotted, List.splitOn_append_cons_self, List.mem_append, not_or]
  rfl

theorem IsName.undotted {n : Text} (h : IsName n) : Undotted n := by
  rw [Undotted, List.splitOn_eq_singleton h.2.1, List.mem_singleton]
  exact fun hdot => h.2.2.1 hdot.symm

theorem undotted_dropIdle {t : Text} (h : Undotted t.reverse) : Undotted (dropIdle t).reverse := by
  fun_induction dropIdle t with
  | case1 c rest ih =>
    rw [List.reverse_cons (a := '/'), undotted_append_slash] at h
    exact ih h.1
  | case2 c rest ih =>
    rw [List.reverse_cons (a := '.'), List.reverse_cons (a := '/'), List.append_assoc,
      List.singleton_append, undotted_append_slash] at h
    rw [List.reverse_cons (a := '/'), undotted_append_slash] at ih
    exact ih ⟨h.1, by decide⟩
  | case3 => decide
  | case4 => exact h

theorem eq_slash_of_dropWhile {t rest : Text} {c : Char}
    (h : t.dropWhile (· ≠ '/') = c :: rest) : c = '/' := by
  have hhead := List.head?_dropWhile_not (· ≠ '/') t
  rw [h] at hhead
  simpa using hhead

theorem undotted_dropWhile {t : Text} (h : Undotted t.reverse) :
    Undotted (t.dropWhile (· ≠ '/')).reverse := by
  rw [← t.takeWhile_append_dropWhile (p := (· ≠ '/'))] at h
  cases hdrop : t.dropWhile (· ≠ '/') with
  | nil => decide
  | cons c rest =>
    obtain rfl := eq_slash_of_dropWhile hdrop
    rw [hdrop, List.reverse_append, List.reverse_cons, List.append_assoc, List.singleton_append,
      undotted_append_slash] at h
    rw [List.reverse_cons, undotted_append_slash]
    exact ⟨h.1, by decide⟩

theorem undotted_pop {p : Path} (h : Undotted p) : Undotted (pop p) := by
  rw [pop, parent?]
  split
  case h_1 => exact h
  case h_2 => exact h
  case h_3 =>
    have hdrop := undotted_dropIdle (t := p.reverse) (by rwa [List.reverse_reverse])
    exact undotted_dropIdle (undotted_dropWhile hdrop)

theorem isClosed_undotted : IsClosed Undotted where
  root := by decide
  join {p n} hp hn := by
    cases p with
    | nil => simpa [join, hn.isAbsolute_eq_false] using hn.undotted
    | cons c p =>
      obtain ⟨base, hjoin, hbase | hbase⟩ := exists_join (List.cons_ne_nil c p) hn <;>
        rw [hjoin, undotted_append_slash]
      · exact ⟨hbase ▸ hp, hn.undotted⟩
      · exact ⟨(undotted_append_slash.mp (hbase ▸ hp)).1, hn.undotted⟩
  pop := undotted_pop

theorem IsTidy.isNormal {p : Path} (h : IsTidy p) : IsNormal p := by
  induction h with
  | root => exact isClosed_isNormal.root
  | join _ hn ih => exact isClosed_isNormal.join ih hn

/-- A tidy path ends in a name, unless it is the root. -/
theorem IsTidy.eq_root_or {p : Path} (h : IsTidy p) :
    p = ['/'] ∨ ∃ base n, IsName n ∧ p = base ++ '/' :: n := by
  cases h with
  | root => exact .inl rfl
  | @join p n hp hn =>
    obtain ⟨base, hjoin, -⟩ := exists_join (ne_nil_of_isAbsolute hp.isNormal.absolute) hn
    exact .inr ⟨base, n, hn, hjoin⟩

theorem IsTidy.dropIdle_reverse {p : Path} (h : IsTidy p) : dropIdle p.reverse = p.reverse := by
  rcases h.eq_root_or with rfl | ⟨base, n, hn, rfl⟩
  · decide
  · simpa using dropIdle_name hn base.reverse

/-- A name that is put behind a tidy path is all that is dropped again. -/
theorem IsTidy.pop_join {p n : Text} (h : IsTidy p) (hn : IsName n) : pop (Path.join p n) = p := by
  have habs := h.isNormal.absolute
  obtain ⟨base, hjoin, hbase⟩ := exists_join (ne_nil_of_isAbsolute habs) hn
  have hdrop : dropIdle (Path.join p n).reverse = n.reverse ++ '/' :: base.reverse := by
    rw [hjoin]
    simpa using dropIdle_name hn base.reverse
  have hkept : dropIdle ('/' :: base.reverse) = p.reverse := by
    rcases hbase with rfl | rfl
    · obtain ⟨c, r, hr⟩ := List.exists_cons_of_ne_nil
        (List.reverse_ne_nil_iff.mpr (ne_nil_of_isAbsolute habs))
      rw [hr, dropIdle, ← hr, h.dropIdle_reverse]
    · simpa using h.dropIdle_reverse
  rw [(pop_of_dropIdle (isAbsolute_join habs hn) hn.names_eq hn.2.1 hdrop).2, hkept,
    List.reverse_reverse]

theorem isClosed_isTidy : IsClosed IsTidy where
  root := .root
  join := .join
  pop hp := by
    cases hp with
    | root => exact .root
    | join hp hn => rwa [hp.pop_join hn]

end Closed

section Walk

variable {P : Path → Prop} {home : Option Path} {cwd p : Path}

theorem IsClosed.step (h : IsClosed P) (hp : P p) {n : Text} (hn : n ≠ [] ∧ '/' ∉ n) :
    P (Path.step p (Component.ofText n)) := by
  rw [Component.ofText]
  split
  case isTrue => exact hp
  case isFalse hdot =>
    split
    case isTrue => exact h.pop hp
    case isFalse hup => exact h.join hp ⟨hn.1, hn.2, hdot, hup⟩

theorem IsClosed.foldl_step (h : IsClosed P) (hp : P p) {ns : List Text}
    (hns : ∀ n ∈ ns, n ≠ [] ∧ '/' ∉ n) : P ((ns.map Component.ofText).foldl Path.step p) := by
  induction ns generalizing p with
  | nil => exact hp
  | cons n ns ih =>
    rw [List.forall_mem_cons] at hns
    exact ih (h.step hp hns.1) hns.2

/-- A typed path leads from a directory of a closed kind to a path of this kind. -/
theorem IsClosed.resolve (h : IsClosed P) (hcwd : P cwd) (home : Option Path) (typed : Text) :
    P (resolve home cwd typed) := by
  rw [Path.resolve]
  split
  case isTrue => exact hcwd
  case isFalse =>
    rw [foldl_components]
    refine h.foldl_step ?_ fun n hn =>
      ⟨(mem_names_iff.mp hn).2.1, slash_notMem_of_mem_names hn⟩
    by_cases habs : isAbsolute (expandTilde home typed) = true
    · simpa [habs] using h.root
    · simpa [habs] using hcwd

/-- An absolute path is no abbreviation. -/
theorem expandTilde_of_isAbsolute (h : isAbsolute p = true) : expandTilde home p = p := by
  obtain ⟨c, p, rfl⟩ := List.exists_cons_of_ne_nil (ne_nil_of_isAbsolute h)
  have hc : c = '/' := by simpa [isAbsolute] using h
  subst hc
  rfl

/-- Nor is any other text without a tilde in front. -/
theorem expandTilde_of_head {t : Text} (h : t.head? ≠ some '~') : expandTilde home t = t := by
  unfold expandTilde
  split
  case h_4 => rfl
  all_goals exact absurd rfl h

/-- What a path without an abbreviation names is walked to along its names. -/
theorem resolve_eq_of_head {t : Text} (hne : t ≠ []) (h : t.head? ≠ some '~') :
    resolve home cwd t =
      ((names t).map Component.ofText).foldl step (if isAbsolute t then ['/'] else cwd) := by
  rw [resolve, if_neg (by simpa using hne), expandTilde_of_head h, foldl_components]
  split <;> rfl

/-- A path that is typed in the directory that another one names is what both name together, with a
slash between them: whatever dots and slashes they have, and wherever `..` goes. -/
theorem resolve_resolve {p q : Text} (hne : p ≠ []) (hp : p.head? ≠ some '~')
    (hq : q.head? ≠ some '~') (hrel : q.head? ≠ some '/') (home : Option Path) (cwd : Path) :
    resolve home (resolve home cwd p) q = resolve home cwd (p ++ '/' :: q) := by
  have hhead : (p ++ '/' :: q).head? = p.head? := by
    cases p with
    | nil => exact absurd rfl hne
    | cons c p => rfl
  have habs : isAbsolute (p ++ '/' :: q) = isAbsolute p := by
    rw [isAbsolute, hhead, isAbsolute]
  have hfirst : resolve home cwd p = _ := resolve_eq_of_head hne hp
  have hboth : resolve home cwd (p ++ '/' :: q) = _ := resolve_eq_of_head (by simp) (hhead ▸ hp)
  rw [hboth, habs, names_append_slash, List.map_append, List.foldl_append, ← hfirst]
  by_cases hnil : q = []
  · subst hnil
    simp [resolve]
  · rw [resolve_eq_of_head hnil hq, if_neg (by simpa [isAbsolute] using hrel)]

theorem resolve_resolve_aboveRoot :
    "./a//../..".toList ≠ [] ∧ "./a//../..".toList.head? ≠ some '~' ∧
      "../b/./c/".toList.head? ≠ some '~' ∧ "../b/./c/".toList.head? ≠ some '/' ∧
      resolve none (resolve none ['/', 'w'] "./a//../..".toList) "../b/./c/".toList =
        resolve none ['/', 'w'] "./a//../../../b/./c/".toList :=
  ⟨by decide, by decide, by decide, by decide,
    resolve_resolve (by decide) (by decide) (by decide) (by decide) none ['/', 'w']⟩

/-- A path without `..` is walked name by name, wherever the walk starts. -/
theorem resolve_of_isNormal (h : IsNormal p) :
    resolve home cwd p = (names p).foldl join ['/'] := by
  have hnames : ∀ n ∈ names p, Component.ofText n = .name n := fun n hn => (h.isName hn).ofText_eq
  rw [Path.resolve, if_neg (by simpa using ne_nil_of_isAbsolute h.absolute),
    expandTilde_of_isAbsolute h.absolute, foldl_components, if_pos h.absolute,
    List.map_congr_left hnames, List.foldl_map]
  rfl

theorem isTidy_foldl_join {ns : List Text} (hns : ∀ n ∈ ns, IsName n) (hp : IsTidy p) :
    IsTidy (ns.foldl join p) ∧ names (ns.foldl join p) = names p ++ ns := by
  induction ns generalizing p with
  | nil => exact ⟨hp, (List.append_nil _).symm⟩
  | cons n ns ih =>
    rw [List.forall_mem_cons] at hns
    obtain ⟨htidy, hnames⟩ := ih hns.2 (hp.join hns.1)
    refine ⟨htidy, ?_⟩
    rw [List.foldl_cons, hnames, names_join hp.isNormal.absolute hns.1, List.append_assoc]
    rfl

theorem components_resolve_of_isNormal (h : IsNormal p) :
    components (resolve home cwd p) = components p := by
  obtain ⟨htidy, hnames⟩ := isTidy_foldl_join (fun n => h.isName) .root
  rw [resolve_of_isNormal h, components_of_isAbsolute htidy.isNormal.absolute, hnames,
    components_of_isAbsolute h.absolute]
  rfl

theorem IsTidy.foldl_names (h : IsTidy p) : (names p).foldl Path.join ['/'] = p := by
  induction h with
  | root => rfl
  | join hp hn ih =>
    rw [names_join hp.isNormal.absolute hn, List.foldl_append, ih]
    rfl

theorem resolve_of_isTidy (h : IsTidy p) : resolve home cwd p = p := by
  rw [resolve_of_isNormal h.isNormal, h.foldl_names]

end Walk

end LineShell.Path

import LineShell.Proofs.Commands.Search
import LineShell.Proofs.Files.Write
import LineShell.Proofs.Listing.Painted
import LineShell.Proofs.Text.Width

/-! Names in columns, read row by row: all of them, in order, each at the column of a terminal that
its place in the row gives it. -/

namespace LineShell.Listing

open Text

section Chunks

variable {α : Type} {n : Nat} {items : List α}

theorem flatten_chunks (n : Nat) (items : List α) : (chunks n items).flatten = items := by
  fun_induction chunks n items with
  | case1 => rfl
  | case2 x rest ih => rw [List.flatten_cons, ih, List.cons_append, List.take_append_drop]

theorem length_le_of_mem_chunks (hn : 0 < n) : ∀ part ∈ chunks n items, part.length ≤ n := by
  fun_induction chunks n items with
  | case1 => simp
  | case2 x rest ih =>
    refine List.forall_mem_cons.mpr ⟨?_, ih⟩
    rw [List.length_cons, List.length_take]
    omega

/-- All parts but the last are full. -/
theorem length_of_mem_dropLast_chunks (hn : 0 < n) :
    ∀ part ∈ (chunks n items).dropLast, part.length = n := by
  fun_induction chunks n items with
  | case1 => simp
  | case2 x rest ih =>
    by_cases hmore : chunks n (rest.drop (n - 1)) = []
    · rw [hmore]
      simp
    have hlong : n - 1 < rest.length := by
      by_contra hshort
      rw [List.drop_eq_nil_of_le (Nat.le_of_not_lt hshort), chunks] at hmore
      exact hmore rfl
    rw [List.dropLast_cons_of_ne_nil hmore]
    refine List.forall_mem_cons.mpr ⟨?_, ih⟩
    rw [List.length_cons, List.length_take]
    omega

end Chunks

section Row

variable {column : Nat} {l : Label} {ls : List Label}

theorem Label.shown_uncoloured (l : Label) : l.shown false = l.text := by
  rw [shown, ite_eq_right_iff]
  exact fun _ => rfl

/-- What stands behind filled cells begins at the column that their number gives. -/
theorem width_flatMap_cell_append (h : ∀ l ∈ ls, width l.text < column) (t : Text) :
    width (ls.flatMap (cell false column) ++ t) = ls.length * column + width t := by
  induction ls with
  | nil => simp
  | cons l ls ih =>
    rw [List.forall_mem_cons] at h
    have hfree : 0 < column - width l.text := Nat.sub_pos_of_lt h.1
    rw [List.flatMap_cons, cell, Label.shown_uncoloured, List.append_assoc, List.append_assoc,
      width_append_blanks_append _ hfree, ih h.2, List.length_cons, Nat.succ_mul]
    omega

/-- A row of names with blanks behind them, in which each name starts where the names of its number
start in every row. -/
def Aligned (column : Nat) (names : List Text) (shown : Text) : Prop :=
  ∃ cells : List Text, cells.flatten = shown ∧
    List.Forall₂ (fun name c => ∃ free, c = name ++ blanks free) names cells ∧
    ∀ j < names.length, width (cells.take j).flatten = j * column

theorem aligned_shownRow {init : List Label} (hroom : ∀ x ∈ init, width x.text < column)
    (l : Label) :
    Aligned column ((init ++ [l]).map Label.text) (shownRow false column (init ++ [l])) := by
  refine ⟨init.map (cell false column) ++ [l.text], ?_, ?_, ?_⟩
  · rw [shownRow_concat, Label.shown_uncoloured, List.flatten_append, List.flatMap_def]
    simp
  · rw [List.map_append, List.map_singleton]
    refine List.rel_append ?_ (.cons ⟨0, (List.append_nil _).symm⟩ .nil)
    rw [List.forall₂_map_left_iff, List.forall₂_map_right_iff, List.forall₂_same]
    exact fun x _ => ⟨_, by rw [cell, Label.shown_uncoloured]⟩
  · intro j hj
    rw [List.length_map, List.length_append, List.length_singleton, Nat.lt_succ_iff] at hj
    have hbefore : ∀ x ∈ init.take j, width x.text < column :=
      fun x hx => hroom x (List.mem_of_mem_take hx)
    have hwidth := width_flatMap_cell_append hbefore []
    rw [List.take_append_of_le_length (by simpa using hj), ← List.map_take, ← List.flatMap_def]
    rw [List.append_nil, List.length_take, Nat.min_eq_left hj] at hwidth
    exact hwidth

theorem width_shownRow {init : List Label} (hroom : ∀ x ∈ init, width x.text < column) (l : Label) :
    width (shownRow false column (init ++ [l])) = init.length * column + width l.text := by
  rw [shownRow_concat, width_flatMap_cell_append hroom, Label.shown_uncoloured]

theorem lineFeed_notMem_shownRow (h : ∀ l ∈ ls, '\n' ∉ l.text) :
    '\n' ∉ shownRow false column ls := by
  rcases List.eq_nil_or_concat ls with rfl | ⟨init, l, rfl⟩
  · exact List.not_mem_nil
  rw [List.concat_eq_append, List.forall_mem_append, List.forall_mem_singleton] at h
  rw [List.concat_eq_append, shownRow_concat, Label.shown_uncoloured, List.mem_append, not_or]
  refine ⟨fun hmem => ?_, h.2⟩
  obtain ⟨x, hx, hcell⟩ := List.mem_flatMap.mp hmem
  rw [cell, Label.shown_uncoloured, List.mem_append] at hcell
  exact hcell.elim (h.1 x hx) (notMem_blanks (by decide) _)

theorem shownRow_ne_nil (hne : ls ≠ []) (h : ∀ l ∈ ls, l.text ≠ []) :
    shownRow false column ls ≠ [] := by
  obtain ⟨init, l, rfl⟩ := (List.eq_nil_or_concat ls).resolve_left hne
  rw [List.concat_eq_append, shownRow_concat, Label.shown_uncoloured]
  exact List.append_ne_nil_of_right_ne_nil _ (h l (by simp))

end Row

/-- The width of the widest of the names. -/
structure IsWidest (names : List Text) (widest : Nat) : Prop where
  le : ∀ name ∈ names, width name ≤ widest
  reached : names ≠ [] → ∃ name ∈ names, width name = widest

/-- Names read row by row on a terminal, and the rows as they are shown. -/
structure InRows (terminal widest : Nat) (names : List Text) (rows : List (List Text))
    (shown : List Text) : Prop where
  complete : rows.flatten = names
  even : ∃ n, (∀ r ∈ rows.dropLast, r.length = n) ∧ ∀ r ∈ rows, r ≠ [] ∧ r.length ≤ n
  aligned : List.Forall₂ (Aligned (widest + 2)) rows shown
  unbroken : ∀ line ∈ shown, '\n' ∉ line
  narrow : ∀ line ∈ shown, width line ≤ max terminal widest

section Layout

variable {labels : List Label}

theorem foldl_max_eq_or_mem (ns : List Nat) (m : Nat) :
    ns.foldl max m = m ∨ ns.foldl max m ∈ ns := by
  induction ns generalizing m with
  | nil => exact .inl rfl
  | cons a ns ih =>
    rw [List.foldl_cons]
    rcases ih (max m a) with heq | hmem
    · rcases Nat.le_total m a with hle | hle
      · exact .inr (by rw [heq, Nat.max_eq_right hle]; exact List.mem_cons_self)
      · exact .inl (by rw [heq, Nat.max_eq_left hle])
    · exact .inr (List.mem_cons_of_mem a hmem)

theorem isWidest_widest (labels : List Label) :
    IsWidest (labels.map Label.text) (widest labels) where
  le := List.forall_mem_map.mpr fun _ => width_le_widest
  reached hne := by
    rcases foldl_max_eq_or_mem (labels.map fun l => width l.text) 0 with hzero | hmem
    · obtain ⟨l, hl⟩ := List.exists_mem_of_ne_nil labels (by simpa using hne)
      have hle : width l.text ≤ 0 := hzero ▸ width_le_widest hl
      exact ⟨l.text, List.mem_map_of_mem hl, (Nat.le_zero.mp hle).trans hzero.symm⟩
    · obtain ⟨l, hl, hwidth⟩ := List.mem_map.mp hmem
      exact ⟨l.text, List.mem_map_of_mem hl, hwidth⟩

/-- As many columns are taken as fit, or else one. -/
theorem width_row_le {terminal widest length last : Nat} (hlast : last ≤ widest)
    (hlength : length < max (terminal / (widest + gap)) 1) :
    length * (widest + gap) + last ≤ max terminal widest := by
  cases length with
  | zero => omega
  | succ length =>
    have hcount : length + 2 ≤ terminal / (widest + gap) := by omega
    have hfit : (length + 2) * (widest + gap) ≤ terminal := Nat.mul_le_of_le_div _ _ _ hcount
    rw [Nat.succ_mul] at hfit
    omega

theorem inRows_rows (terminal : Nat) (h : ∀ l ∈ labels, '\n' ∉ l.text) :
    InRows terminal (widest labels) (labels.map Label.text)
      ((rows terminal labels).map (List.map Label.text))
      ((rows terminal labels).map (shownRow false (widest labels + gap))) := by
  have hcount : 0 < max (terminal / (widest labels + gap)) 1 := Nat.le_max_right _ _
  have hne : ∀ r ∈ rows terminal labels, r ≠ [] := ne_nil_of_mem_chunks _ labels
  have hlength : ∀ r ∈ rows terminal labels, r.length ≤ max (terminal / (widest labels + gap)) 1 :=
    length_le_of_mem_chunks hcount
  constructor
  case complete => rw [← List.map_flatten, rows, flatten_chunks]
  case even =>
    refine ⟨max (terminal / (widest labels + gap)) 1, ?_, ?_⟩
    · rw [← List.map_dropLast, List.forall_mem_map]
      intro r hr
      rw [List.length_map]
      exact length_of_mem_dropLast_chunks hcount r hr
    · rw [List.forall_mem_map]
      intro r hr
      rw [List.length_map, ne_eq, List.map_eq_nil_iff]
      exact ⟨hne r hr, hlength r hr⟩
  case aligned =>
    rw [List.forall₂_map_left_iff, List.forall₂_map_right_iff, List.forall₂_same]
    intro r hr
    obtain ⟨init, l, rfl⟩ := (List.eq_nil_or_concat r).resolve_left (hne r hr)
    rw [List.concat_eq_append] at hr ⊢
    exact aligned_shownRow (fun x hx => width_lt_of_mem_rows hr (List.mem_append_left _ hx)) l
  case unbroken =>
    exact List.forall_mem_map.mpr fun r hr =>
      lineFeed_notMem_shownRow fun l hl => h l (mem_of_mem_rows hr hl)
  case narrow =>
    rw [List.forall_mem_map]
    intro r hr
    obtain ⟨init, l, rfl⟩ := (List.eq_nil_or_concat r).resolve_left (hne r hr)
    rw [List.concat_eq_append] at hr ⊢
    rw [width_shownRow (fun x hx => width_lt_of_mem_rows hr (List.mem_append_left _ hx))]
    refine width_row_le (width_le_widest (mem_of_mem_rows hr (by simp))) ?_
    have hshort := hlength _ hr
    rw [List.length_append, List.length_singleton] at hshort
    omega

/-- Nothing is dropped from the end of rows that end in a name. -/
theorem dropLineFeeds_stacked {shown : List Text} (h : ∀ line ∈ shown, line ≠ [] ∧ '\n' ∉ line) :
    dropLineFeeds (stacked shown) = stacked shown := by
  rw [dropLineFeeds_eq_self_iff]
  rcases List.eq_nil_or_concat shown with rfl | ⟨above, last, rfl⟩
  · simp [stacked, joined]
  rw [List.concat_eq_append, List.forall_mem_append, List.forall_mem_singleton] at h
  have hlast : (stacked (above ++ [last])).getLast? = last.getLast? := by
    by_cases hnone : above = []
    · rw [hnone, List.nil_append, stacked, joined, List.intercalate_singleton]
    · rw [stacked_concat hnone, List.append_cons, List.getLast?_append_of_ne_nil _ h.2.1]
  rw [List.concat_eq_append, hlast]
  exact fun heq => h.2.2 (List.mem_of_getLast? heq)

end Layout

section Entries

variable {t : FileTree} {entries : List (Name × Node)} (zone : Time → Int)

/-- The line of details of an entry. It ends in the name of the entry as it is shown. -/
def Tells (zone : Time → Int) (t : FileTree) (e : Name × Node) (line : Text) : Prop :=
  (details t e.2).line zone e.1.shown = .ok line

theorem tells_detailLines (t : FileTree) (taken : Nat) (entries : List (Name × Node)) :
    Except.All (fun r => List.Forall₂ (Tells zone t) entries r.2)
      (detailLines false zone t taken entries) := by
  induction entries generalizing taken with
  | nil => exact .ok .nil
  | cons e entries ih =>
    obtain ⟨name, n⟩ := e
    rw [detailLines, Label.shown_uncoloured]
    refine Except.All.bind (P := fun _ => True) (fun _ _ => trivial) fun taken _ => ?_
    refine Except.All.bind (P := Tells zone t (name, n)) (fun _ hline => hline) fun line hline => ?_
    exact (ih taken).bind fun rest hrest => .ok (.cons hline hrest)

/-- The lines of details stand below the number of the blocks. -/
theorem exists_withDetails_eq (h : Tellable t entries) :
    ∃ taken lines, withDetails false zone t entries =
        .ok (stacked (("total ".toList ++ decimal taken) :: lines)) ∧
      List.Forall₂ (Tells zone t) entries lines := by
  obtain ⟨shown, hshown⟩ := (exists_withDetails_eq_ok_iff zone false t entries).mpr h
  rw [withDetails] at hshown ⊢
  cases hlines : detailLines false zone t 0 entries with
  | error e => rw [hlines] at hshown; cases hshown
  | ok r => exact ⟨r.1, r.2, rfl, tells_detailLines zone t 0 entries r hlines⟩

/-- The entries of a directory as a listing goes through them, names with a leading dot only if all
are asked for. -/
structure Ordered (all : Bool) (entries es : List (Name × Node)) : Prop where
  once : es.Perm (entries.filter fun e => all || e.1.shown.head? ≠ some '.')
  sorted : es.Pairwise fun a b => a.1.le b.1 = true

theorem ordered_listed (options : Options) (entries : List (Name × Node)) :
    Ordered options.all entries (listed options entries) :=
  ⟨List.mergeSort_perm _ _, Commands.pairwise_inOrder _⟩

/-- Without colours, the names of a directory in columns are all of its names in the order of their
bytes, read row by row. The details are told of the same entries in the same order, unless the
directory may not be searched. -/
theorem render_inRows {p : Place} (all : Bool) (terminal : Nat) (hlist : t.list p = .ok entries)
    (hnames : ∀ e ∈ entries, e.1.shown ≠ [] ∧ '\n' ∉ e.1.shown) :
    ∃ es, Ordered all entries es ∧
      (∃ widest rows shown, IsWidest (es.map fun e => e.1.shown) widest ∧
        InRows terminal widest (es.map fun e => e.1.shown) rows shown ∧
        render false zone terminal { all, long := false } t p = .ok (.ok (stacked shown))) ∧
      ∀ d, t.node true p = .ok d →
        (d.grants .search = true → Tellable t es → ∃ taken lines,
          List.Forall₂ (Tells zone t) es lines ∧
            render false zone terminal { all, long := true } t p =
              .ok (.ok (stacked (("total ".toList ++ decimal taken) :: lines)))) ∧
        (d.grants .search = false →
          render false zone terminal { all, long := true } t p = .ok (.ok "total 0")) := by
  refine ⟨listed { all } entries, ordered_listed { all } entries, ?_, ?_⟩
  · have hlabels : ∀ l ∈ labels { all } entries, l.text ≠ [] ∧ '\n' ∉ l.text :=
      List.forall_mem_map.mpr fun e he => hnames e (mem_of_mem_listed he)
    have htexts : (labels { all } entries).map Label.text =
        (listed { all } entries).map fun e => e.1.shown := List.map_map
    have hrows := inRows_rows terminal fun l hl => (hlabels l hl).2
    have hwidest := isWidest_widest (labels { all } entries)
    rw [htexts] at hrows hwidest
    refine ⟨_, _, _, hwidest, hrows, ?_⟩
    rw [render, hlist]
    change Except.ok (inColumns false terminal (labels { all } entries)) = _
    rw [inColumns_eq, dropLineFeeds_stacked]
    rw [List.forall_mem_map]
    intro r hr
    have hclean : ∀ l ∈ r, l.text ≠ [] ∧ '\n' ∉ l.text :=
      fun l hl => hlabels l (mem_of_mem_rows hr hl)
    exact ⟨shownRow_ne_nil (ne_nil_of_mem_chunks _ _ r hr) fun l hl => (hclean l hl).1,
      lineFeed_notMem_shownRow fun l hl => (hclean l hl).2⟩
  · intro d hd
    have hlong : render false zone terminal { all, long := true } t p =
        .ok (withDetails false zone t
          (if d.grants .search then listed { all } entries else [])) := by
      rw [render, hlist]
      change Except.ok (withDetails false zone t (detailed { all, long := true } t p entries)) = _
      rw [detailed, hd]
      rfl
    rw [hlong]
    constructor
    · intro hsearch htellable
      rw [if_pos hsearch]
      obtain ⟨taken, lines, hdetails, htells⟩ := exists_withDetails_eq zone htellable
      exact ⟨taken, lines, htells, by rw [hdetails]⟩
    · intro hsearch
      rw [hsearch]
      rfl

/-- A directory of some mode with one file in it. -/
def directoryOf (mode : Nat) : FileTree :=
  { root := .dir 0o755 0 [(Name.ofText ['d'], .dir mode 0 [(Name.ofText ['f'], .file 0)])],
    files := [{ bytes := [120], mode := 0o644, changed := 0 }] }

theorem find_directoryOf (mode : Nat) :
    (directoryOf mode).find true (['/', 'd'] : Path) =
      .ok (.entry [Name.ofText ['d']] (.dir mode 0 [(Name.ofText ['f'], .file 0)])) := by
  have hd : FileTree.FromRoot ['/', 'd'] (Name.ofText ['d']) := by decide
  rw [FileTree.find_fromRoot (by decide) (directoryOf mode) rfl hd rfl]
  rfl

theorem node_directoryOf (mode : Nat) : (directoryOf mode).node true (['/', 'd'] : Path) =
    .ok (.dir mode 0 [(Name.ofText ['f'], .file 0)]) :=
  (FileTree.node_eq_ok_iff _ _ _ _).mpr ⟨_, find_directoryOf mode⟩

theorem list_directoryOf (mode : Nat) (h : Access.read.granted mode = true) :
    (directoryOf mode).list (['/', 'd'] : Path) = .ok [(Name.ofText ['f'], .file 0)] :=
  (FileTree.list_eq_ok_iff _ _ _).mpr ⟨_, _, find_directoryOf mode, rfl, h, rfl⟩

theorem render_inRows_directoryOf :
    (directoryOf 0o755).list (['/', 'd'] : Path) = .ok [(Name.ofText ['f'], .file 0)] ∧
      (∀ e ∈ [(Name.ofText ['f'], Node.file 0)], e.1.shown ≠ [] ∧ '\n' ∉ e.1.shown) ∧
      ∃ es, Ordered false [(Name.ofText ['f'], .file 0)] es ∧
        (∃ widest rows shown, IsWidest (es.map fun e => e.1.shown) widest ∧
          InRows 0 widest (es.map fun e => e.1.shown) rows shown ∧
          render false (fun _ => 0) 0 {} (directoryOf 0o755) (['/', 'd'] : Path) =
            .ok (.ok (stacked shown))) ∧
        ∃ taken lines, List.Forall₂ (Tells (fun _ => 0) (directoryOf 0o755)) es lines ∧
          render false (fun _ => 0) 0 { long := true } (directoryOf 0o755) (['/', 'd'] : Path) =
            .ok (.ok (stacked (("total ".toList ++ decimal taken) :: lines))) := by
  have hlist := list_directoryOf 0o755 (by decide)
  have hnames : ∀ e ∈ [(Name.ofText ['f'], Node.file 0)], e.1.shown ≠ [] ∧ '\n' ∉ e.1.shown := by
    simp only [List.forall_mem_singleton]
    decide
  obtain ⟨es, hordered, hshort, hlong⟩ := render_inRows (fun _ => 0) false 0 hlist hnames
  have hes : es = [(Name.ofText ['f'], .file 0)] := List.perm_singleton.mp hordered.once
  have htellable : Tellable (directoryOf 0o755) es := by
    subst hes
    exact ⟨by decide, List.forall_mem_singleton.mpr ⟨by decide, by decide⟩⟩
  exact ⟨hlist, hnames, es, hordered, hshort,
    (hlong _ (node_directoryOf 0o755)).1 (by decide) htellable⟩

/-- The name of an entry is listed, and no details of it, where the directory may only be read. -/
theorem render_unsearchable :
    render false (fun _ => 0) 80 {} (directoryOf 0o444) (['/', 'd'] : Path) = .ok (.ok ['f']) ∧
      render false (fun _ => 0) 80 { long := true } (directoryOf 0o444) (['/', 'd'] : Path) =
        .ok (.ok "total 0") := by
  have hlist := list_directoryOf 0o444 (by decide)
  have hlisted : listed {} [(Name.ofText ['f'], .file 0)] = [(Name.ofText ['f'], .file 0)] :=
    List.mergeSort_singleton _
  rw [render, render, hlist]
  constructor
  · change Except.ok (inColumns false 80 ((listed {} _).map _)) = _
    rw [hlisted, inColumns_eq, List.map_singleton, rows, chunks, List.take_nil, List.drop_nil,
      chunks]
    rfl
  · change Except.ok (withDetails false _ _ (detailed _ _ _ _)) = _
    rw [detailed, node_directoryOf]
    rfl

end Entries

end LineShell.Listing

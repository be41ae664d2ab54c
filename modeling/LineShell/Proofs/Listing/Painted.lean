import LineShell.Proofs.Layout
import LineShell.Proofs.Listing
import LineShell.Proofs.Text.Paint
import Mathlib.Data.List.DropRight

/-! Listings with and without colours. Details are the same. So are names in columns, but the line
feeds at the end of a listing are dropped, those of a name as well, and behind the name of a
directory they are out of reach once it is painted. -/

namespace LineShell.Listing

open Text

section LineFeeds

variable {a b t : Text}

theorem dropLineFeeds_append_lineFeeds (a : Text) (h : ∀ c ∈ b, c = '\n') :
    dropLineFeeds (a ++ b) = dropLineFeeds a := by
  rw [dropLineFeeds, List.reverse_append, List.dropWhile_append_of_pos (by simpa using h)]
  rfl

theorem dropLineFeeds_append (a : Text) (h : ¬∀ c ∈ b, c = '\n') :
    dropLineFeeds (a ++ b) = a ++ dropLineFeeds b := by
  have hleft : b.reverse.dropWhile (· = '\n') ≠ [] := by
    simpa [List.dropWhile_eq_nil_iff] using h
  rw [dropLineFeeds, dropLineFeeds, List.reverse_append, List.dropWhile_append,
    if_neg (by simpa using hleft), List.reverse_append, List.reverse_reverse]

theorem dropLineFeeds_eq_self_iff : dropLineFeeds t = t ↔ t.getLast? ≠ some '\n' := by
  cases t using List.reverseRecOn with
  | nil => exact iff_of_true rfl (by simp)
  | append_singleton t c =>
    rw [List.getLast?_concat]
    by_cases hc : c = '\n'
    · subst hc
      rw [dropLineFeeds_append_lineFeeds t (by simp)]
      refine iff_of_false (fun h => ?_) (by simp)
      have hprefix : dropLineFeeds t <+: t := List.rdropWhile_prefix (· = '\n') t
      exact absurd (h ▸ hprefix).length_le (by simp)
    · refine iff_of_true ?_ (by simpa using hc)
      rw [dropLineFeeds_append t (by simpa using hc)]
      simp [dropLineFeeds, hc]

/-- Line feeds are out of reach behind anything else. -/
theorem dropLineFeeds_append_self (a : Text) {c : Char} (h : b.getLast? = some c) (hc : c ≠ '\n') :
    dropLineFeeds (a ++ b) = a ++ b := by
  rw [dropLineFeeds_eq_self_iff, List.getLast?_append, h, Option.some_or]
  exact fun heq => hc (Option.some_inj.mp heq)

theorem dropLineFeeds_subset (t : Text) : dropLineFeeds t ⊆ t :=
  (List.rdropWhile_prefix (· = '\n') t).subset

theorem stacked_concat {above : List Text} (h : above ≠ []) (last : Text) :
    stacked (above ++ [last]) = stacked above ++ '\n' :: last := by
  induction above with
  | nil => exact absurd rfl h
  | cons first above ih =>
    cases above with
    | nil => simp [stacked, joined, List.intercalate_cons_cons]
    | cons second above =>
      simp only [stacked, joined, List.cons_append, List.intercalate_cons_cons,
        List.append_assoc] at ih ⊢
      rw [ih (by simp)]

end LineFeeds

section Columns

variable {column : Nat} {l : Label} {labels : List Label}

/-- A name that is filled up to the width of a column. -/
def cell (on : Bool) (column : Nat) (l : Label) : Text :=
  l.shown on ++ blanks (column - width l.text)

/-- A row as it is shown where each name has room. -/
def shownRow (on : Bool) (column : Nat) (r : List Label) : Text :=
  r.dropLast.flatMap (cell on column) ++ (r.getLast?.elim [] (Label.shown on))

theorem row_eq (on : Bool) (h : ∀ l ∈ labels, width l.text ≤ column) :
    row on column labels = .ok (shownRow on column labels) := by
  fun_induction row on column labels with
  | case1 => rfl
  | case2 => rfl
  | case3 l rest hrest ih =>
    rw [List.forall_mem_cons] at h
    obtain ⟨second, rest, rfl⟩ := List.exists_cons_of_ne_nil fun hnil => hrest hnil
    rw [Count.less_of_le h.1, ih h.2]
    simp [shownRow, cell, bind, Except.bind, pure, Except.pure]

/-- The rows of a listing in columns. -/
def rows (terminal : Nat) (labels : List Label) : List (List Label) :=
  chunks (max (terminal / (widest labels + gap)) 1) labels

theorem mem_of_mem_rows {terminal : Nat} {r : List Label} (hr : r ∈ rows terminal labels)
    (hl : l ∈ r) : l ∈ labels :=
  mem_of_mem_chunks _ labels r hr l hl

theorem width_lt_of_mem_rows {terminal : Nat} {r : List Label} (hr : r ∈ rows terminal labels)
    (hl : l ∈ r) : width l.text < widest labels + gap :=
  Nat.lt_succ_of_le (Nat.le_succ_of_le (width_le_widest (mem_of_mem_rows hr hl)))

theorem inColumns_eq (on : Bool) (terminal : Nat) (labels : List Label) :
    inColumns on terminal labels = .ok (dropLineFeeds
      (stacked ((rows terminal labels).map (shownRow on (widest labels + gap))))) := by
  have hcount : columnCount terminal (widest labels + gap) =
      .ok (max (terminal / (widest labels + gap)) 1) := by
    rw [columnCount, Count.share_of_pos (by simp [gap])]
    rfl
  have hroom : ∀ r ∈ rows terminal labels,
      row on (widest labels + gap) r = .ok (shownRow on (widest labels + gap) r) :=
    fun r hr => row_eq on fun l hl => (width_lt_of_mem_rows hr hl).le
  have hrows := Except.mapM_eq_ok hroom
  rw [rows] at hrows
  rw [inColumns, hcount]
  simp only [bind, Except.bind, hrows]
  rfl

theorem ne_nil_of_mem_chunks {α : Type} (n : Nat) (items : List α) :
    ∀ part ∈ chunks n items, part ≠ [] := by
  fun_induction chunks n items with
  | case1 => simp
  | case2 x rest ih => exact List.forall_mem_cons.mpr ⟨List.cons_ne_nil _ _, ih⟩

/-- Whether the line feeds at the end of a listing reach up to the name of a directory that ends in
one itself. The rows are taken from the last one up; a row of a name with nothing but line feeds is
passed over. -/
def reachesPainted : List (List Label) → Bool
  | [] => false
  | r :: above =>
    match r.getLast? with
    | none => reachesPainted above
    | some l =>
      if l.isDir then l.text.getLast? = some '\n'
      else r.length = 1 && l.text.all (· = '\n') && reachesPainted above

theorem Label.paints (h : escape ∉ l.text) : Paints (l.shown false) (l.shown true) := by
  rw [Label.shown, Label.shown]
  split
  case isTrue => exact Style.paints_paint (by decide) h
  case isFalse => exact .of_notMem h

theorem paints_cell (h : escape ∉ l.text) : Paints (cell false column l) (cell true column l) :=
  (Label.paints h).append (.of_notMem (escape_notMem_blanks _))

theorem shownRow_concat (on : Bool) (column : Nat) (init : List Label) (l : Label) :
    shownRow on column (init ++ [l]) = init.flatMap (cell on column) ++ l.shown on := by
  rw [shownRow, List.dropLast_concat, List.getLast?_concat]
  rfl

/-- Blanks stand behind every name but the last one of a row. -/
theorem getLast?_flatMap_cell (on : Bool) {init : List Label} (hne : init ≠ [])
    (hroom : ∀ x ∈ init, width x.text < column) :
    (init.flatMap (cell on column)).getLast? = some ' ' := by
  obtain ⟨init, x, rfl⟩ := (List.eq_nil_or_concat init).resolve_left hne
  have hx : width x.text < column := hroom x (by simp)
  obtain ⟨free, hfree⟩ := Nat.exists_eq_add_of_lt hx
  have hblanks : blanks (column - width x.text) = blanks free ++ [' '] := by
    rw [hfree, blanks, blanks, ← List.replicate_succ', show width x.text + free + 1 - width x.text =
      free + 1 by omega]
  rw [List.concat_eq_append, List.flatMap_append, List.flatMap_singleton, cell, hblanks,
    ← List.append_assoc, ← List.append_assoc, List.getLast?_concat]

theorem Label.getLast?_shown (h : l.isDir = true) : (l.shown true).getLast? = some 'm' := by
  rw [Label.shown, if_pos h, Style.paint, if_pos rfl, List.getLast?_append_of_ne_nil _ (by decide)]
  rfl

/-- What a listing comes to with one row more, where what stands above it is followed by a line
feed. -/
theorem unpainted_dropLineFeeds_row_iff {plain painted : Text} (hpaints : Paints plain painted)
    {init : List Label} (hroom : ∀ x ∈ init, width x.text < column)
    (hinit : ∀ x ∈ init, escape ∉ x.text) (hl : escape ∉ l.text) (hne : l.text ≠ []) :
    unpainted false (dropLineFeeds (painted ++ shownRow true column (init ++ [l]))) =
        dropLineFeeds (plain ++ shownRow false column (init ++ [l])) ↔
      if l.isDir then l.text.getLast? ≠ some '\n'
      else (init = [] ∧ ∀ c ∈ l.text, c = '\n') →
        unpainted false (dropLineFeeds painted) = dropLineFeeds plain := by
  have hfront : Paints (plain ++ init.flatMap (cell false column))
      (painted ++ init.flatMap (cell true column)) :=
    hpaints.append (Paints.flatMap fun x hx => paints_cell (hinit x hx))
  have hall := hfront.append (Label.paints hl)
  rw [shownRow_concat, shownRow_concat, ← List.append_assoc, ← List.append_assoc]
  split
  case isTrue hdir =>
    have hstays := dropLineFeeds_append_self (painted ++ init.flatMap (cell true column))
      (Label.getLast?_shown hdir) (by decide)
    have hplain : l.shown false = l.text := by
      rw [Label.shown, if_pos hdir]
      rfl
    rw [hstays, hall.unpainted_eq, eq_comm, dropLineFeeds_eq_self_iff, hplain,
      List.getLast?_append_of_ne_nil _ hne]
  case isFalse hdir =>
    have hshown (on : Bool) : l.shown on = l.text := if_neg hdir
    rw [hshown, hshown]
    by_cases hfeeds : ∀ c ∈ l.text, c = '\n'
    · rw [dropLineFeeds_append_lineFeeds _ hfeeds, dropLineFeeds_append_lineFeeds _ hfeeds]
      by_cases halone : init = []
      · rw [halone, List.flatMap_nil, List.flatMap_nil, List.append_nil, List.append_nil]
        exact ⟨fun h _ => h, fun h => h ⟨rfl, hfeeds⟩⟩
      · have hstays (on : Bool) (t : Text) :=
          dropLineFeeds_append_self t (getLast?_flatMap_cell on halone hroom) (by decide)
        rw [hstays, hstays, hfront.unpainted_eq]
        simp [halone]
    · rw [dropLineFeeds_append _ hfeeds, dropLineFeeds_append _ hfeeds]
      have hleft := hfront.append
        (.of_notMem fun h => hl (dropLineFeeds_subset l.text h))
      rw [hleft.unpainted_eq]
      simp [hfeeds]

theorem paints_shownRow {r : List Label} (h : ∀ l ∈ r, escape ∉ l.text) :
    Paints (shownRow false column r) (shownRow true column r) := by
  rcases List.eq_nil_or_concat r with rfl | ⟨init, l, rfl⟩
  · exact .of_notMem List.not_mem_nil
  · rw [List.concat_eq_append, List.forall_mem_append, List.forall_mem_singleton] at h
    rw [List.concat_eq_append, shownRow_concat, shownRow_concat]
    exact (Paints.flatMap fun x hx => paints_cell (h.1 x hx)).append (Label.paints h.2)

theorem paints_rows {rs : List (List Label)} (h : ∀ r ∈ rs, ∀ l ∈ r, escape ∉ l.text) :
    Paints (stacked (rs.map (shownRow false column)))
      (stacked (rs.map (shownRow true column))) := by
  refine Paints.stacked ?_
  rw [List.forall₂_map_left_iff, List.forall₂_map_right_iff, List.forall₂_same]
  exact fun r hr => paints_shownRow (h r hr)

/-- What is above a last row, with the line feed between them, if anything is. -/
theorem exists_above (column : Nat) {rs : List (List Label)}
    (h : ∀ r ∈ rs, ∀ l ∈ r, escape ∉ l.text) :
    ∃ plain painted, Paints plain painted ∧
      dropLineFeeds plain = dropLineFeeds (stacked (rs.map (shownRow false column))) ∧
      dropLineFeeds painted = dropLineFeeds (stacked (rs.map (shownRow true column))) ∧
      ∀ r, stacked ((rs ++ [r]).map (shownRow false column)) = plain ++ shownRow false column r ∧
        stacked ((rs ++ [r]).map (shownRow true column)) = painted ++ shownRow true column r := by
  by_cases hnone : rs = []
  · subst hnone
    have hsingle (t : Text) : stacked [t] = t := by
      rw [stacked, joined, List.intercalate_singleton]
    exact ⟨[], [], .of_notMem List.not_mem_nil, rfl, rfl, fun r => ⟨hsingle _, hsingle _⟩⟩
  · have hstacked (on : Bool) (r : List Label) :
        stacked ((rs ++ [r]).map (shownRow on column)) =
          stacked (rs.map (shownRow on column)) ++ ['\n'] ++ shownRow on column r := by
      rw [List.map_append, List.map_singleton, stacked_concat (by simpa using hnone),
        List.append_assoc]
      rfl
    exact ⟨_, _, (paints_rows h).append (.of_notMem (t := ['\n']) (by decide)),
      dropLineFeeds_append_lineFeeds _ (by simp), dropLineFeeds_append_lineFeeds _ (by simp),
      fun r => ⟨hstacked false r, hstacked true r⟩⟩

theorem unpainted_dropLineFeeds_iff {rs : List (List Label)} (hrs : ∀ r ∈ rs, r ≠ [])
    (hroom : ∀ r ∈ rs, ∀ l ∈ r, width l.text < column)
    (hclean : ∀ r ∈ rs, ∀ l ∈ r, escape ∉ l.text ∧ l.text ≠ []) :
    unpainted false (dropLineFeeds (stacked (rs.map (shownRow true column)))) =
        dropLineFeeds (stacked (rs.map (shownRow false column))) ↔
      reachesPainted rs.reverse = false := by
  induction rs using List.reverseRecOn with
  | nil => exact iff_of_true rfl rfl
  | append_singleton rs r ih =>
    rw [List.forall_mem_append, List.forall_mem_singleton] at hrs hroom hclean
    obtain ⟨init, l, rfl⟩ := (List.eq_nil_or_concat r).resolve_left hrs.2
    obtain ⟨plain, painted, hpaints, hplain, hpainted, hstacked⟩ :=
      exists_above column fun r hr l hl => (hclean.1 r hr l hl).1
    have ih := ih hrs.1 hroom.1 hclean.1
    rw [← hplain, ← hpainted] at ih
    obtain ⟨hroom, hclean⟩ := And.intro hroom.2 hclean.2
    rw [List.concat_eq_append, List.forall_mem_append, List.forall_mem_singleton] at hroom hclean
    rw [List.concat_eq_append, (hstacked _).1, (hstacked _).2,
      unpainted_dropLineFeeds_row_iff hpaints hroom.1 (fun x hx => (hclean.1 x hx).1) hclean.2.1
        hclean.2.2, List.reverse_concat, reachesPainted, List.getLast?_concat]
    dsimp only
    split
    case isTrue => simp
    case isFalse =>
      rw [ih]
      cases init <;> simp

end Columns

section Details

theorem escape_notMem_decimal (n : Nat) : escape ∉ decimal n := fun h =>
  absurd (Nat.isDigit_of_mem_toDigits (by decide) (by decide) h) (by decide)

theorem escape_notMem_twoDigits (n : Nat) : escape ∉ twoDigits n := by
  rw [twoDigits]
  split
  case isTrue =>
    exact List.not_mem_cons_of_ne_of_not_mem (by decide) (escape_notMem_decimal n)
  case isFalse => exact escape_notMem_decimal n

theorem escape_notMem_monthName (i : Nat) :
    escape ∉ (monthNames[i]?.getD "").toList := by
  have hnames : ∀ m ∈ monthNames, escape ∉ m.toList := by decide
  cases h : monthNames[i]? with
  | none => decide
  | some m => exact hnames m (List.mem_of_getElem? h)

theorem all_date (zone : Time → Int) (t : Time) : Except.All (escape ∉ ·) (date zone t) := by
  rw [date]
  split
  case isTrue => rintro _ ⟨⟩
  case isFalse =>
    refine .ok ?_
    simp only [List.mem_append, not_or]
    exact ⟨⟨⟨⟨⟨⟨escape_notMem_monthName _, by decide⟩, escape_notMem_twoDigits _⟩, by decide⟩,
      escape_notMem_twoDigits _⟩, by decide⟩, escape_notMem_twoDigits _⟩

theorem escape_notMem_threeBits (bits : Nat) : escape ∉ threeBits bits := by
  rw [threeBits]
  split_ifs <;> decide

theorem escape_notMem_permissions (t : FileTree) (n : Node) :
    escape ∉ (details t n).permissions := by
  have hkinds : escape ∉ ['d', 'l', '-'] := by decide
  have hkind : (details t n).kind ∈ ['d', 'l', '-'] := by
    cases n with
    | file id =>
      rw [details]
      split <;> simp
    | _ => simp [details]
  rw [Details.permissions, List.cons_append, List.cons_append, List.mem_cons, not_or,
    List.mem_append, not_or, List.mem_append, not_or]
  exact ⟨fun h => hkinds (h ▸ hkind), ⟨escape_notMem_threeBits _, escape_notMem_threeBits _⟩,
    escape_notMem_threeBits _⟩

theorem line_matches (zone : Time → Int) (t : FileTree) (n : Node) {plain painted : Text}
    (h : Paints plain painted) :
    Except.Matches Paints ((details t n).line zone plain) ((details t n).line zone painted) := by
  refine (Except.Matches.same (all_date _ _)).bind ?_
  rintro date _ ⟨rfl, hdate⟩
  have hsize : escape ∉ flushRight 10 (decimal (details t n).size) := by
    rw [flushRight, List.mem_append, not_or]
    exact ⟨escape_notMem_blanks _, escape_notMem_decimal _⟩
  have hblank : Paints [' '] [' '] := .of_notMem (by decide)
  have hfront := (Paints.of_notMem (escape_notMem_permissions t n)).append
    (hblank.append (.of_notMem hsize))
  exact .ok ((hfront.append (hblank.append (.of_notMem hdate))).append (hblank.append h))

theorem detailLines_matches (zone : Time → Int) (t : FileTree) (taken : Nat)
    {entries : List (Name × Node)} (h : ∀ e ∈ entries, escape ∉ e.1.shown) :
    Except.Matches (fun a b => a.1 = b.1 ∧ List.Forall₂ Paints a.2 b.2)
      (detailLines false zone t taken entries) (detailLines true zone t taken entries) := by
  induction entries generalizing taken with
  | nil => exact .ok ⟨rfl, .nil⟩
  | cons e entries ih =>
    obtain ⟨name, n⟩ := e
    rw [List.forall_mem_cons] at h
    rw [detailLines, detailLines]
    refine (Except.Matches.same (P := fun _ => True) fun _ _ => trivial).bind ?_
    rintro taken _ ⟨rfl, -⟩
    refine (line_matches zone t n (Label.paints h.1)).bind fun line line' hline => ?_
    refine (ih taken h.2).bind ?_
    rintro ⟨taken, lines⟩ ⟨_, lines'⟩ ⟨rfl, hlines⟩
    exact .ok ⟨rfl, .cons hline hlines⟩

theorem withDetails_matches (zone : Time → Int) (t : FileTree)
    {entries : List (Name × Node)} (h : ∀ e ∈ entries, escape ∉ e.1.shown) :
    Except.Matches Paints (withDetails false zone t entries) (withDetails true zone t entries) := by
  refine (detailLines_matches zone t 0 h).bind ?_
  rintro ⟨taken, lines⟩ ⟨_, lines'⟩ ⟨rfl, hlines⟩
  have htotal : escape ∉ "total ".toList ++ decimal taken := by
    rw [List.mem_append, not_or]
    exact ⟨by decide, escape_notMem_decimal taken⟩
  exact .ok (Paints.stacked (.cons (.of_notMem htotal) hlines))

end Details

/-- The labels of the entries that are listed. -/
def labels (options : Options) (entries : List (Name × Node)) : List Label :=
  (listed options entries).map fun (name, n) => label name n

theorem mem_of_mem_listed {options : Options} {entries : List (Name × Node)} {e : Name × Node}
    (h : e ∈ listed options entries) : e ∈ entries :=
  (List.mem_filter.mp (List.mem_mergeSort.mp h)).1

/-- Names in columns are the same with and without colours, except where line feeds are dropped that
belong to the name of a directory. -/
theorem inColumns_matches_iff (terminal : Nat) {ls : List Label}
    (h : ∀ l ∈ ls, escape ∉ l.text ∧ l.text ≠ []) :
    (inColumns true terminal ls).map (unpainted false) = inColumns false terminal ls ↔
      reachesPainted (rows terminal ls).reverse = false := by
  have hne : ∀ r ∈ rows terminal ls, r ≠ [] := ne_nil_of_mem_chunks _ ls
  rw [inColumns_eq, inColumns_eq, ← unpainted_dropLineFeeds_iff hne
    (fun r hr l hl => width_lt_of_mem_rows hr hl) fun r hr l hl => h l (mem_of_mem_rows hr hl)]
  rw [Except.map, Except.ok.injEq]

/-- A listing is the same with and without colours, unless it is one in columns where line feeds are
dropped that belong to the name of a directory. -/
theorem render_matches_iff (terminal : Nat) (zone : Time → Int) (options : Options) (t : FileTree)
    (p : Place)
    (h : ∀ entries, t.list p = .ok entries → ∀ e ∈ entries, escape ∉ e.1.shown ∧ e.1.shown ≠ []) :
    (render true zone terminal options t p).map (·.map (unpainted false)) =
        render false zone terminal options t p ↔
      options.long = true ∨ ∀ entries, t.list p = .ok entries →
        reachesPainted (rows terminal (labels options entries)).reverse = false := by
  rw [render, render]
  cases hlist : t.list p with
  | error e => exact iff_of_true rfl (.inr (by rintro _ ⟨⟩))
  | ok entries =>
    have hentries := h entries hlist
    rw [Except.map, Except.ok.injEq]
    simp only [Except.ok.injEq, forall_eq']
    split
    case isTrue hlong =>
      have hdetailed : ∀ e ∈ detailed options t p entries, escape ∉ e.1.shown := by
        rw [detailed]
        split
        case isTrue => exact fun e he => (hentries e (mem_of_mem_listed he)).1
        case isFalse => exact fun e he => absurd he List.not_mem_nil
      exact iff_of_true
        ((withDetails_matches zone t hdetailed).map_eq fun _ _ => Paints.unpainted_eq) (.inl hlong)
    case isFalse hshort =>
      have hlabels : ∀ l ∈ labels options entries, escape ∉ l.text ∧ l.text ≠ [] :=
        List.forall_mem_map.mpr fun e he => hentries e (mem_of_mem_listed he)
      rw [or_iff_right hshort]
      exact inColumns_matches_iff terminal hlabels

end LineShell.Listing

import LineShell.Help.Page
import LineShell.Listing.Columns
import LineShell.Proofs.Answer

/-! Whatever is laid out in columns has room there: a listing on a terminal of any width, and the
table of the help in a frame of any width. -/

namespace LineShell

open Text

theorem Text.le_foldl_max (ns : List Nat) (m : Nat) :
    m ≤ ns.foldl max m ∧ ∀ n ∈ ns, n ≤ ns.foldl max m := by
  induction ns generalizing m with
  | nil => simp
  | cons a ns ih =>
    obtain ⟨hstart, hall⟩ := ih (max m a)
    rw [List.foldl_cons, List.forall_mem_cons]
    exact ⟨Nat.le_trans (Nat.le_max_left m a) hstart,
      Nat.le_trans (Nat.le_max_right m a) hstart, hall⟩

namespace Listing

theorem width_le_widest {labels : List Label} {l : Label} (h : l ∈ labels) :
    width l.text ≤ widest labels :=
  (le_foldl_max _ 0).2 _ (List.mem_map_of_mem h)

theorem mem_of_mem_chunks {α : Type} (n : Nat) (items : List α) :
    ∀ part ∈ chunks n items, ∀ a ∈ part, a ∈ items := by
  fun_induction chunks n items with
  | case1 => simp
  | case2 x rest ih =>
    rw [List.forall_mem_cons]
    constructor
    · rintro a (_ | ⟨_, ha⟩)
      · exact List.mem_cons_self
      · exact List.mem_cons_of_mem x (List.mem_of_mem_take ha)
    · intro part hpart a ha
      exact List.mem_cons_of_mem x (List.mem_of_mem_drop (ih part hpart a ha))

theorem exists_row_eq_ok (on : Bool) {column : Nat} {labels : List Label}
    (h : ∀ l ∈ labels, width l.text ≤ column) : ∃ t, row on column labels = .ok t := by
  fun_induction row on column labels with
  | case1 => exact ⟨_, rfl⟩
  | case2 => exact ⟨_, rfl⟩
  | case3 l rest _ ih =>
    rw [List.forall_mem_cons] at h
    obtain ⟨t, ht⟩ := ih h.2
    exact ⟨_, by rw [Count.less_of_le h.1, ht]; rfl⟩

/-- No name is wider than its column, on whatever terminal. -/
theorem exists_inColumns_eq_ok (on : Bool) (terminal : Nat) (labels : List Label) :
    ∃ t, inColumns on terminal labels = .ok t := by
  have hcount : columnCount terminal (widest labels + gap) =
      .ok (max (terminal / (widest labels + gap)) 1) := by
    rw [columnCount, Count.share_of_pos (by simp [gap])]
    rfl
  obtain ⟨rows, hrows⟩ := Except.exists_mapM_eq_ok (row on (widest labels + gap))
    (chunks (max (terminal / (widest labels + gap)) 1) labels) fun part hpart =>
      exists_row_eq_ok on fun l hl =>
        Nat.le_add_right_of_le (width_le_widest (mem_of_mem_chunks _ _ part hpart l hl))
  exact ⟨_, by rw [inColumns, hcount]; simp only [bind, Except.bind, hrows]; rfl⟩

end Listing

namespace Help

theorem width_le_nameColumns {e : Entry} (h : e ∈ catalogue) : width e.name ≤ nameColumns :=
  have hmem : width e.name ∈ catalogue.map fun e => width e.name := List.mem_map_of_mem h
  Nat.le_add_right_of_le ((le_foldl_max _ 0).2 _ hmem)

/-- A row of the table, its name filled up to the columns for names. -/
def rowOf (name line : Text) : Framed :=
  .row [.plain " ", .styled .boldBrightGreen name,
    .plain (blanks (nameColumns - width name) ++ line)]

/-- Lines with a name in front of the first one. -/
def rowsOf (name : Text) : List Text → List Framed
  | [] => []
  | first :: others => rowOf name first :: others.map (rowOf [])

def Entry.rowsIn (inner : Nat) (e : Entry) : List Framed :=
  rowsOf e.name (wrap e.summary (summaryColumns inner))

def Category.heading (c : Category) : Framed :=
  .row [.styled .boldBrightYellow c.title]

/-- The rows of a category between the rules above and below it. -/
def Category.rowsIn (inner : Nat) (c : Category) : List Framed :=
  c.heading :: (catalogue.filter (·.category = c)).flatMap (Entry.rowsIn inner)

/-- What stands above and below the rows of the categories. -/
def tableTitle (inner : Nat) : Framed :=
  .centered inner "DELTA SHELL - COMMANDS"

def tableNotes : List Framed :=
  [.text "Use 'help --command' for details on one command.",
   .text "Any other program on PATH can be run too."]

/-- The lines of the table: its title and notes, and between them the categories, with a rule above
and below each. -/
def tableRows (inner : Nat) : List Framed :=
  [tableTitle inner, .rule] ++ Category.all.flatMap (fun c => c.rowsIn inner ++ [.rule]) ++
    tableNotes

theorem namedRow_eq_ok {name : Text} (h : width name ≤ nameColumns) (line : Text) :
    namedRow name line = .ok (rowOf name line) := by
  rw [namedRow, Count.less_of_le h]
  rfl

theorem Entry.rows_eq_ok (inner : Nat) {e : Entry} (h : e ∈ catalogue) :
    e.rows inner = .ok (e.rowsIn inner) := by
  rw [Entry.rows, Entry.rowsIn]
  cases wrap e.summary (summaryColumns inner) with
  | nil => rfl
  | cons first others =>
    have hothers : others.mapM (namedRow []) = .ok (others.map (rowOf [])) :=
      Except.mapM_eq_ok fun line _ => namedRow_eq_ok (Nat.zero_le _) line
    dsimp only
    rw [namedRow_eq_ok (width_le_nameColumns h), hothers]
    rfl

theorem Category.rows_eq_ok (inner : Nat) (c : Category) :
    c.rows inner = .ok (c.rowsIn inner ++ [.rule]) := by
  have hrows : (catalogue.filter (·.category = c)).mapM (Entry.rows inner) =
      .ok ((catalogue.filter (·.category = c)).map (Entry.rowsIn inner)) :=
    Except.mapM_eq_ok fun e he => Entry.rows_eq_ok inner (List.mem_filter.mp he).1
  rw [Category.rows, hrows, Category.rowsIn, List.flatMap_def]
  rfl

/-- No name is wider than the columns for names, so that all the rows are there. -/
theorem tableContent_eq_ok (inner : Nat) : tableContent inner = .ok (tableRows inner) := by
  have hrows : Category.all.mapM (Category.rows inner) =
      .ok (Category.all.map fun c => c.rowsIn inner ++ [.rule]) :=
    Except.mapM_eq_ok fun c _ => Category.rows_eq_ok inner c
  rw [tableContent, hrows, tableRows, List.flatMap_def]
  rfl

theorem exists_table_eq_ok (on : Bool) (width : Nat) : ∃ t, table on width = .ok t :=
  ⟨_, by rw [table, tableContent_eq_ok]; rfl⟩

end Help

end LineShell

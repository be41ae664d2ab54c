import LineShell.Proofs.Help.Catalogue
import LineShell.Proofs.Layout
import LineShell.Proofs.Text.Frame
import LineShell.Proofs.Text.Trim
import LineShell.Proofs.Text.Wrap

/-! The table of all commands and the page of each, in frames of any width. All lines are as wide as
the frame, and the table can be read back: it has each entry of the catalogue once. -/

namespace LineShell

namespace Text

theorem trimEnd_append_blanks (t : Text) (n : Nat) : trimEnd (t ++ blanks n) = trimEnd t := by
  have hblanks : trimEnd (blanks n) = [] := by
    rw [trimEnd, List.dropWhile_eq_nil_iff.mpr, List.reverse_nil]
    intro c hc
    rw [List.eq_of_mem_replicate (List.mem_reverse.mp hc)]
    decide
  rw [trimEnd_append, if_pos hblanks]

/-- Parts with a separator behind each are cut where the separators are. -/
theorem splitOnP_flatMap_append {α β : Type} {separates : α → Bool} {separator : α}
    (hseparator : separates separator = true) {part : β → List α} {items : List β}
    (hparts : ∀ b ∈ items, ∀ a ∈ part b, separates a = false) (rest : List α) :
    (items.flatMap (fun b => part b ++ [separator]) ++ rest).splitOnP separates =
      items.map part ++ rest.splitOnP separates := by
  induction items with
  | nil => rfl
  | cons b items ih =>
    rw [List.forall_mem_cons] at hparts
    rw [List.flatMap_cons, List.append_assoc, List.append_assoc, List.singleton_append,
      List.splitOnP_append_cons _ _ hseparator, List.splitOnP_eq_singleton hparts.1,
      ih hparts.2]
    rfl

end Text

namespace Help

open Text

/-- An entry as a reader finds it in the table: the heading above it, its name, and the words of its
summary. -/
structure Listed where
  category : Text
  name : Text
  summary : List Text

def Entry.listed (e : Entry) : Listed :=
  { category := e.category.title, name := e.name, summary := words e.summary }

/-- Whether a line of the table is a rule from side to side. -/
def isRule (line : Text) : Bool :=
  line.head? = some '╟'

/-- What stands between the sides of a line, which have a blank behind the left one. -/
def between (line : Text) : Text :=
  (line.drop 2).dropLast

/-- What stands in the columns for names, and the words behind them. Rows of entries stand one
column further in than headings. -/
def readRow (line : Text) : Text × List Text :=
  let shown := (between line).drop 1
  (trimEnd (shown.take nameColumns), words (shown.drop nameColumns))

/-- Rows taken together: one without a name goes on with the row above it. -/
def gathered : List (Text × List Text) → List (Text × List Text)
  | [] => []
  | (name, summary) :: rest =>
    match gathered rest with
    | ([], further) :: others => (name, summary ++ further) :: others
    | others => (name, summary) :: others

/-- The entries between two rules; the first line there is a heading. -/
def readSection : List Text → List Listed
  | [] => []
  | heading :: rows =>
    let category := trimEnd (between heading)
    (gathered (rows.map readRow)).map fun (name, summary) => { category, name, summary }

/-- All entries of the table. Above the first rule is its title, and below the last one are
notes. -/
def readTable (t : Text) : List Listed :=
  ((t.splitOn '\n').splitOnP isRule).tail.dropLast.flatMap readSection

section Rectangular

variable {w : Nat} {e : Entry}

theorem leaves_title (c : Category) : Leaves narrowestPage 3 c.title := by
  cases c <;> decide

theorem nameColumns_eq : nameColumns = 9 := by
  decide +kernel

theorem length_name_le (h : e ∈ catalogue) : e.name.length ≤ nameColumns := by
  have hwidth : width e.name = e.name.length := width_printable (neat_catalogue e h).name.printable
  rw [← hwidth]
  exact width_le_nameColumns h

theorem plain_rowOf (name line : Text) :
    Row.plain [.plain " ", .styled .boldBrightGreen name,
        .plain (blanks (nameColumns - width name) ++ line)] =
      ' ' :: (name ++ (blanks (nameColumns - width name) ++ line)) := by
  change ' ' :: (name ++ (_ ++ [])) = _
  rw [List.append_nil]
  rfl

theorem hasRoom_rowOf {name line : Text} (hname : Printable name)
    (hcolumns : name.length ≤ nameColumns) (hline : Leaves w (nameColumns + 4) line) :
    (rowOf name line).HasRoom w := by
  change Leaves w 3 (Row.plain _)
  have hroom := hline.room
  have hblank : Printable [' '] := by decide
  rw [plain_rowOf, width_printable hname, ← List.singleton_append]
  refine .behind (.behind (.behind ⟨hline.printable, ?_⟩ (printable_blanks _)) hname) hblank
  rw [blanks, List.length_replicate, List.length_singleton]
  omega

theorem hasRoom_rowsOf {name : Text} {lines : List Text} (hname : Printable name)
    (hcolumns : name.length ≤ nameColumns) (hlines : ∀ l ∈ lines, Leaves w (nameColumns + 4) l) :
    ∀ f ∈ rowsOf name lines, f.HasRoom w := by
  cases lines with
  | nil => exact fun _ hf => absurd hf List.not_mem_nil
  | cons first others =>
    rw [List.forall_mem_cons] at hlines
    refine List.forall_mem_cons.mpr ⟨hasRoom_rowOf hname hcolumns hlines.1, ?_⟩
    exact List.forall_mem_map.mpr fun l hl =>
      hasRoom_rowOf (by simp [Printable]) (Nat.zero_le _) (hlines.2 l hl)

theorem hasRoom_rowsIn (hw : narrowestPage ≤ w) (h : e ∈ catalogue) :
    ∀ f ∈ e.rowsIn (inside w), f.HasRoom w := by
  have hneat := neat_catalogue e h
  have hlimit : max (summaryColumns (inside w)) narrowest + (nameColumns + 4) ≤ w := by
    have hw : 60 ≤ w := hw
    rw [summaryColumns, nameColumns_eq, inside, narrowest]
    omega
  exact hasRoom_rowsOf hneat.name.printable (length_name_le h) <|
    leaves_wrap hneat.summary (fun word hword => (hneat.narrow word hword).mono hw) hlimit

theorem hasRoom_heading (hw : narrowestPage ≤ w) (c : Category) : c.heading.HasRoom w := by
  change Leaves w 3 (Row.plain [.styled .boldBrightYellow c.title])
  rw [Framed.plain_styled]
  exact (leaves_title c).mono hw

theorem hasRoom_categoryRows (hw : narrowestPage ≤ w) (c : Category) :
    ∀ f ∈ c.rowsIn (inside w), f.HasRoom w :=
  List.forall_mem_cons.mpr ⟨hasRoom_heading hw c, List.forall_mem_flatMap.mpr fun _ he =>
    hasRoom_rowsIn hw (List.mem_filter.mp he).1⟩

theorem hasRoom_tableTitle (hw : narrowestPage ≤ w) : (tableTitle (inside w)).HasRoom w := by
  have htitle : Leaves narrowestPage 3 "DELTA SHELL - COMMANDS" := by decide
  exact Framed.hasRoom_centered (htitle.mono hw)

theorem hasRoom_tableNotes (hw : narrowestPage ≤ w) : ∀ f ∈ tableNotes, f.HasRoom w := by
  have hnotes : ∀ t ∈ ["Use 'help --command' for details on one command.".toList,
      "Any other program on PATH can be run too.".toList], Leaves narrowestPage 3 t := by
    decide
  exact List.forall_mem_map.mpr fun t ht => Framed.hasRoom_text ((hnotes t ht).mono hw)

theorem hasRoom_tableRows (hw : narrowestPage ≤ w) :
    ∀ f ∈ tableRows (inside w), f.HasRoom w := by
  have hcategories : ∀ f ∈ Category.all.flatMap (fun c => c.rowsIn (inside w) ++ [.rule]),
      f.HasRoom w :=
    List.forall_mem_flatMap.mpr fun c _ => List.forall_mem_append.mpr
      ⟨hasRoom_categoryRows hw c, List.forall_mem_singleton.mpr trivial⟩
  exact List.forall_mem_append.mpr ⟨List.forall_mem_append.mpr ⟨List.forall_mem_cons.mpr
    ⟨hasRoom_tableTitle hw, List.forall_mem_singleton.mpr trivial⟩, hcategories⟩,
    hasRoom_tableNotes hw⟩

theorem hasRoom_exampleContent (hw : narrowestPage ≤ w) (h : e.Neat) :
    ∀ f ∈ exampleContent e, f.HasRoom w := by
  rw [exampleContent]
  split
  case isTrue => exact fun _ hf => absurd hf List.not_mem_nil
  case isFalse =>
    have hheading : Framed.HasRoom w (.row [.styled .bold "Examples:"]) := by
      have hleaves : Leaves narrowestPage 3 "Examples:" := by decide
      change Leaves w 3 (Row.plain [.styled .bold "Examples:"])
      rw [Framed.plain_styled]
      exact hleaves.mono hw
    refine List.forall_mem_cons.mpr ⟨trivial, List.forall_mem_cons.mpr ⟨hheading, ?_⟩⟩
    refine List.forall_mem_map.mpr fun sample hsample => ?_
    change Leaves w 3 ([' ', ' '] ++ (sample ++ []))
    rw [List.append_nil]
    exact ((h.examples sample hsample).mono hw).behind (by decide)

theorem hasRoom_entryContent (hw : narrowestPage ≤ w) (h : e.Neat) :
    ∀ f ∈ entryContent (inside w) e, f.HasRoom w := by
  have hlimit : max (inside w - 2) narrowest + 3 ≤ w := by
    have hw : 60 ≤ w := hw
    rw [inside, narrowest]
    omega
  have htitle : (Framed.centered (inside w) ("HELP: " ++ e.name.map Char.toUpper)).HasRoom w :=
    Framed.hasRoom_centered (h.name.heading.mono hw)
  have husage : Framed.HasRoom w
      (.row [.plain "Usage: ", .styled .boldBrightGreen e.usage]) := by
    change Leaves w 3 ("Usage: ".toList ++ (e.usage ++ []))
    rw [List.append_nil]
    exact (h.usage.mono hw).behind (by decide)
  have hwords : ∀ word ∈ words e.summary, Leaves w 3 word := fun word hword =>
    ⟨(h.narrow word hword).printable, by have := (h.narrow word hword).room; omega⟩
  have hsummary : ∀ f ∈ (wrap e.summary (inside w - 2)).map Framed.text, f.HasRoom w :=
    List.forall_mem_map.mpr fun l hl =>
      Framed.hasRoom_text (leaves_wrap h.summary hwords hlimit l hl)
  rw [entryContent]
  simp only [List.forall_mem_append, List.forall_mem_cons]
  exact ⟨⟨⟨htitle, trivial, husage, fun _ hf => absurd hf List.not_mem_nil⟩, hsummary⟩,
    hasRoom_exampleContent hw h⟩

end Rectangular

section Reading

variable {e : Entry}

theorem exists_between_line (inner : Nat) (r : Row) :
    ∃ fill, between (Framed.line false inner (.row r)) = r.plain ++ blanks fill := by
  refine ⟨inner - (width r.plain + 1), ?_⟩
  rw [Framed.line_uncoloured, ← List.append_assoc r.plain]
  exact List.dropLast_concat

theorem readRow_line {name : Text} (hname : Printable name) (htrimmed : trimEnd name = name)
    (hcolumns : name.length ≤ nameColumns) (inner : Nat) (line : Text) :
    readRow ((rowOf name line).line false inner) = (name, words line) := by
  obtain ⟨fill, hline⟩ := exists_between_line inner [.plain " ", .styled .boldBrightGreen name,
    .plain (blanks (nameColumns - width name) ++ line)]
  have hlength : (name ++ blanks (nameColumns - name.length)).length = nameColumns := by
    rw [List.length_append, blanks, List.length_replicate]
    omega
  rw [plain_rowOf, width_printable hname, ← List.append_assoc, List.cons_append,
    List.append_assoc] at hline
  rw [readRow, rowOf, width_printable hname, hline, List.drop_one, List.tail_cons,
    List.take_left' hlength, List.drop_left' hlength, trimEnd_append_blanks, htrimmed,
    words_append_blanks]

/-- Rows without a name go on with the row above them. -/
theorem gathered_append {more : List (Text × List Text)}
    (hmore : ∀ row ∈ (gathered more).head?, row.1 ≠ []) (name : Text) (summary : List Text)
    (further : List (List Text)) :
    gathered ((name, summary) :: (further.map (([], ·)) ++ more)) =
      (name, summary ++ further.flatten) :: gathered more := by
  induction further generalizing name summary with
  | nil =>
    rw [List.map_nil, List.nil_append, List.flatten_nil, List.append_nil, gathered]
    split
    case h_1 heq => exact absurd rfl (hmore _ (by rw [heq]; rfl))
    case h_2 => rfl
  | cons ws further ih =>
    rw [List.map_cons, List.cons_append, gathered, ih, List.flatten_cons]

/-- The rows of an entry as they are read. -/
theorem map_readRow_rowsIn (h : e ∈ catalogue) (inner : Nat) :
    ∃ (first : List Text) (others : List (List Text)), words e.summary = first ++ others.flatten ∧
      (e.rowsIn inner).map (fun f => readRow (f.line false inner)) =
        (e.name, first) :: others.map (([], ·)) := by
  have hname := (neat_catalogue e h).name
  have hwords := flatMap_words_wrap e.summary (summaryColumns inner)
  rw [Entry.rowsIn]
  cases hwrap : wrap e.summary (summaryColumns inner) with
  | nil =>
    rw [hwrap] at hwords
    exact absurd hwords.symm (neat_catalogue e h).tells
  | cons first others =>
    rw [hwrap, List.flatMap_cons, List.flatMap_def] at hwords
    refine ⟨words first, others.map words, hwords.symm, ?_⟩
    have hothers (l : Text) : readRow ((rowOf [] l).line false inner) = ([], words l) :=
      readRow_line (by simp [Printable]) rfl (Nat.zero_le _) inner l
    have hfirst : readRow ((rowOf e.name first).line false inner) = (e.name, words first) :=
      readRow_line hname.printable hname.trimmed (length_name_le h) inner first
    simp only [rowsOf, List.map_cons, List.map_map, Function.comp_def, hfirst, hothers]

theorem gathered_rowsIn {entries : List Entry} (h : ∀ e ∈ entries, e ∈ catalogue) (inner : Nat) :
    gathered ((entries.flatMap (Entry.rowsIn inner)).map fun f => readRow (f.line false inner)) =
      entries.map fun e => (e.name, words e.summary) := by
  induction entries with
  | nil => rfl
  | cons e entries ih =>
    rw [List.forall_mem_cons] at h
    obtain ⟨first, others, hwords, hrows⟩ := map_readRow_rowsIn h.1 inner
    have hmore := ih h.2
    rw [List.flatMap_cons, List.map_append, hrows, List.cons_append, gathered_append, hmore,
      ← hwords, List.map_cons]
    rw [hmore]
    cases entries with
    | nil => simp
    | cons next _ => rintro _ ⟨⟩; exact (neat_catalogue next (h.2 _ List.mem_cons_self)).name.ne_nil

/-- A category as it is read: its entries in their order. -/
theorem readSection_rowsIn (c : Category) (inner : Nat) :
    readSection ((c.rowsIn inner).map (Framed.line false inner)) =
      (catalogue.filter (·.category = c)).map Entry.listed := by
  have htitle : trimEnd c.title = c.title := by cases c <;> decide
  have hlisted : ∀ e ∈ catalogue.filter (·.category = c), e ∈ catalogue := fun _ he =>
    (List.mem_filter.mp he).1
  have hentries := gathered_rowsIn hlisted inner
  obtain ⟨fill, hheading⟩ := exists_between_line inner [.styled .boldBrightYellow c.title]
  rw [Framed.plain_styled] at hheading
  rw [Category.rowsIn, List.map_cons, readSection, Category.heading, hheading,
    trimEnd_append_blanks, htitle, List.map_map, Function.comp_def, hentries, List.map_map]
  refine List.map_congr_left fun e he => ?_
  have hcategory : e.category = c := by simpa using (List.mem_filter.mp he).2
  rw [Entry.listed, hcategory]
  rfl

theorem isRule_rowsIn (c : Category) (inner : Nat) :
    ∀ f ∈ c.rowsIn inner, isRule (f.line false inner) = false := by
  refine List.forall_mem_cons.mpr ⟨rfl, List.forall_mem_flatMap.mpr fun e _ => ?_⟩
  rw [Entry.rowsIn]
  cases wrap e.summary (summaryColumns inner) with
  | nil => exact fun _ hf => absurd hf List.not_mem_nil
  | cons first others =>
    exact List.forall_mem_cons.mpr ⟨rfl, List.forall_mem_map.mpr fun _ _ => rfl⟩

/-- The entries stand category by category in the catalogue. -/
theorem flatMap_filter_catalogue :
    (Category.all.flatMap fun c => catalogue.filter (·.category = c)) = catalogue :=
  rfl

/-- What a reader finds in the table is the catalogue. -/
theorem readTable_tableRows {w : Nat} (hw : narrowestPage ≤ w) :
    readTable (stacked (frame false w (tableRows (inside w)))) = catalogue.map Entry.listed := by
  generalize htop : Framed.bar false '╔' '═' '╗' (inside w) = top
  generalize hbottom : Framed.bar false '╚' '═' '╝' (inside w) = bottom
  have hlines : frame false w (tableRows (inside w)) =
      [top, (tableTitle (inside w)).line false (inside w)] ++
        Framed.rule.line false (inside w) ::
          (Category.all.flatMap (fun c =>
            (c.rowsIn (inside w)).map (Framed.line false (inside w)) ++
              [Framed.rule.line false (inside w)]) ++
          (tableNotes.map (Framed.line false (inside w)) ++ [bottom])) := by
    simp [frame, tableRows, List.map_flatMap, htop, hbottom]
  have htitle : ∀ l ∈ [top, (tableTitle (inside w)).line false (inside w)], isRule l = false := by
    rw [← htop]
    exact List.forall_mem_cons.mpr ⟨rfl, List.forall_mem_singleton.mpr rfl⟩
  have hnotes : ∀ l ∈ tableNotes.map (Framed.line false (inside w)) ++ [bottom],
      isRule l = false := by
    rw [← hbottom]
    exact List.forall_mem_append.mpr ⟨List.forall_mem_map.mpr (List.forall_mem_cons.mpr
      ⟨rfl, List.forall_mem_singleton.mpr rfl⟩), List.forall_mem_singleton.mpr rfl⟩
  rw [readTable, splitOn_frame (hasRoom_tableRows hw), hlines,
    List.splitOnP_append_cons _ _ rfl, List.splitOnP_eq_singleton htitle,
    splitOnP_flatMap_append rfl fun c _ => List.forall_mem_map.mpr (isRule_rowsIn c _),
    List.splitOnP_eq_singleton hnotes, List.singleton_append, List.tail_cons, List.dropLast_concat,
    List.flatMap_map]
  simp only [readSection_rowsIn]
  rw [← List.map_flatMap, flatMap_filter_catalogue]

theorem nodup_names : (catalogue.map Entry.name).Nodup := by
  decide +kernel

/-- In a frame of any width, from the narrowest page on, the table and the page of each command are
rectangles. The table has each entry once, below the heading of its category: its name on its first
row, and all the words of its summary, in order, on its rows. -/
theorem pages_fit {w : Nat} (hw : narrowestPage ≤ w) :
    (∃ t, table false w = .ok t ∧ Rectangular w t ∧ readTable t = catalogue.map Entry.listed ∧
        ((readTable t).map Listed.name).Nodup) ∧
      ∀ e ∈ catalogue, Rectangular w (entryPage false w e) := by
  have hframe : 2 ≤ w := Nat.le_trans (by decide) hw
  have hroom {content : List Framed} (h : ∀ f ∈ content, f.HasRoom w) :
      Rectangular w (stacked (frame false w content)) :=
    (rectangular_frame_iff hframe content).mpr fun f hf => (h f hf).rectangular hframe
  refine ⟨⟨_, by rw [table, tableContent_eq_ok]; rfl, hroom (hasRoom_tableRows hw),
    readTable_tableRows hw, ?_⟩, fun e he => hroom (hasRoom_entryContent hw (neat_catalogue e he))⟩
  rw [readTable_tableRows hw, List.map_map]
  exact nodup_names

theorem pages_fit_odd :
    narrowestPage ≤ 61 ∧
      (∃ t, table false 61 = .ok t ∧ Rectangular 61 t ∧ readTable t = catalogue.map Entry.listed ∧
        ((readTable t).map Listed.name).Nodup) ∧
      ∃ e ∈ catalogue, e.name = "find".toList ∧ Rectangular 61 (entryPage false 61 e) := by
  have hw : narrowestPage ≤ 61 := by decide
  obtain ⟨htable, hpages⟩ := pages_fit hw
  obtain ⟨e, he, hname⟩ : ∃ e ∈ catalogue, e.name = "find".toList := by decide
  exact ⟨hw, htable, e, he, hname, hpages e he⟩

end Reading

end Help

end LineShell

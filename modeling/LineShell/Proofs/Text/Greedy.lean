import LineShell.Proofs.Text.Wrap
import Mathlib.Data.List.Chain

/-! A text set in lines, as a cut of its words into rows. A row is as long as the limit allows: the
word that begins the next one has no room on it. -/

namespace LineShell.Text

/-- A row of words, with a blank between neighbours. -/
def spaced (row : List Text) : Text :=
  joined [' '] row

/-- The columns of a row: those of its words, and one for each blank between them. -/
def rowColumns (row : List Text) : Nat :=
  total (row.map width) + (row.length - 1)

/-- Words cut into rows of more than one word within the limit, or of one word. Each row is cut off
only in front of a word that would not have fitted on it. -/
structure CutGreedily (limit : Nat) (ws : List Text) (rows : List (List Text)) : Prop where
  flatten : rows.flatten = ws
  ne_nil : [] ∉ rows
  fits : ∀ row ∈ rows, 1 < row.length → rowColumns row ≤ limit
  full : rows.IsChain fun row next =>
    ∃ word more, next = word :: more ∧ limit < rowColumns (row ++ [word])

section Spaced

variable {row : List Text} {rows : List (List Text)}

theorem spaced_nil : spaced [] = [] :=
  rfl

theorem spaced_singleton (word : Text) : spaced [word] = word := by
  rw [spaced, joined, List.intercalate_singleton]

theorem spaced_cons (word : Text) (h : row ≠ []) :
    spaced (word :: row) = word ++ ' ' :: spaced row := by
  obtain ⟨next, more, rfl⟩ := List.exists_cons_of_ne_nil h
  rw [spaced, spaced, joined, joined, List.intercalate_cons_cons, List.append_assoc]
  rfl

theorem spaced_append {front back : List Text} (hfront : front ≠ []) (hback : back ≠ []) :
    spaced (front ++ back) = spaced front ++ ' ' :: spaced back := by
  induction front with
  | nil => exact absurd rfl hfront
  | cons word front ih =>
    by_cases hrest : front = []
    · rw [hrest, spaced_singleton, List.singleton_append, spaced_cons word hback]
    · have hboth : front ++ back ≠ [] := by simp [hrest]
      rw [List.cons_append, spaced_cons word hboth, ih hrest, spaced_cons word hrest,
        List.append_assoc, List.cons_append]

theorem spaced_concat (h : row ≠ []) (word : Text) :
    spaced (row ++ [word]) = spaced row ++ ' ' :: word := by
  rw [spaced_append h (List.cons_ne_nil word []), spaced_singleton]

/-- Rows that are joined like words are one row. -/
theorem spaced_map_spaced (h : [] ∉ rows) : spaced (rows.map spaced) = spaced rows.flatten := by
  induction rows with
  | nil => rfl
  | cons row rows ih =>
    rw [List.mem_cons, not_or] at h
    by_cases hrest : rows = []
    · rw [hrest, List.map_singleton, spaced_singleton, List.flatten_singleton]
    · have hrow : row ≠ [] := fun hrow => h.1 hrow.symm
      have hmore : rows.flatten ≠ [] := by
        rw [Ne, List.flatten_eq_nil_iff]
        intro hall
        obtain ⟨next, more, rfl⟩ := List.exists_cons_of_ne_nil hrest
        exact h.2 (hall next List.mem_cons_self ▸ List.mem_cons_self)
      rw [List.map_cons, spaced_cons _ (by simpa using hrest), ih h.2, List.flatten_cons,
        spaced_append hrow hmore]

theorem spaced_ne_nil (hne : row ≠ []) (hrow : ∀ word ∈ row, word ≠ []) : spaced row ≠ [] := by
  obtain ⟨word, more, rfl⟩ := List.exists_cons_of_ne_nil hne
  have hword := hrow word List.mem_cons_self
  by_cases hmore : more = []
  · rwa [hmore, spaced_singleton]
  · rw [spaced_cons word hmore]
    simp

/-- Between blanks a row has the words that it was made of. -/
theorem words_spaced (hrow : ∀ word ∈ row, IsWord word) : words (spaced row) = row := by
  induction row with
  | nil => exact words_nil
  | cons word row ih =>
    rw [List.forall_mem_cons] at hrow
    by_cases hmore : row = []
    · rw [hmore, spaced_singleton, hrow.1.words_eq]
    · rw [spaced_cons word hmore, words_append_blank (by decide), hrow.1.words_eq, ih hrow.2]
      rfl

theorem rowColumns_cons (word : Text) (h : row ≠ []) :
    rowColumns (word :: row) = width word + 1 + rowColumns row := by
  have hlength := List.length_pos_iff.mpr h
  rw [rowColumns, rowColumns, List.map_cons, total, List.length_cons]
  omega

/-- The columns of a row are counted word by word and blank by blank. -/
theorem width_spaced (row : List Text) : width (spaced row) = rowColumns row := by
  induction row with
  | nil => rfl
  | cons word row ih =>
    by_cases hmore : row = []
    · rw [hmore, spaced_singleton]
      rfl
    · rw [spaced_cons word hmore, width_append_blank, ih, rowColumns_cons word hmore]
      omega

theorem rowColumns_concat (h : row ≠ []) (word : Text) :
    rowColumns (row ++ [word]) = rowColumns row + 1 + width word := by
  rw [← width_spaced, spaced_concat h, width_append_blank, width_spaced]
  omega

end Spaced

section Rows

variable {limit : Nat} {front ws : List Text} {rows : List (List Text)}

/-- The first row begins with the first word. -/
theorem CutGreedily.eq_cons {word : Text} (h : CutGreedily limit (word :: ws) rows) :
    ∃ more later, rows = (word :: more) :: later := by
  have hflatten := h.flatten
  have hne := h.ne_nil
  match rows with
  | [] => cases hflatten
  | [] :: later => exact absurd List.mem_cons_self hne
  | (first :: more) :: later =>
    rw [List.flatten_cons, List.cons_append, List.cons.injEq] at hflatten
    exact ⟨more, later, by rw [hflatten.1]⟩

/-- A row is closed in front of a word that does not fit on it. -/
theorem CutGreedily.cons {row : List Text} {word : Text} (hrow : row ≠ [])
    (hfits : 1 < row.length → rowColumns row ≤ limit) (hfull : limit < rowColumns (row ++ [word]))
    (h : CutGreedily limit (word :: ws) rows) :
    CutGreedily limit (row ++ word :: ws) (row :: rows) := by
  refine ⟨by rw [List.flatten_cons, h.flatten], ?_, List.forall_mem_cons.mpr ⟨hfits, h.fits⟩, ?_⟩
  · rw [List.mem_cons, not_or]
    exact ⟨hrow.symm, h.ne_nil⟩
  · obtain ⟨more, later, rfl⟩ := h.eq_cons
    exact h.full.cons_cons ⟨word, more, rfl, hfull⟩

/-- Behind a row that is begun the words are cut greedily, the row included. -/
theorem exists_filled_eq (hfront : ∀ word ∈ front, word ≠ []) (hws : ∀ word ∈ ws, word ≠ [])
    (hfits : 1 < front.length → rowColumns front ≤ limit) :
    ∃ rows, filled limit (spaced front) ws = rows.map spaced ∧
      CutGreedily limit (front ++ ws) rows := by
  induction ws generalizing front with
  | nil =>
    rw [filled, List.append_nil]
    by_cases hempty : front = []
    · subst hempty
      exact ⟨[], rfl, rfl, by simp, by simp, .nil⟩
    · rw [if_neg (by simpa using spaced_ne_nil hempty hfront)]
      exact ⟨[front], rfl, by simp, by simpa using Ne.symm hempty, by simpa using hfits,
        .singleton front⟩
  | cons word ws ih =>
    rw [List.forall_mem_cons] at hws
    have halone : ∀ w ∈ [word], w ≠ [] := List.forall_mem_singleton.mpr hws.1
    have hbegun : 1 < [word].length → rowColumns [word] ≤ limit := by simp
    obtain ⟨rows, hrows, hcut⟩ := ih halone hws.2 hbegun
    rw [spaced_singleton] at hrows
    by_cases hempty : front = []
    · subst hempty
      exact ⟨rows, by rw [spaced_nil, filled, if_pos List.isEmpty_nil, hrows], hcut⟩
    · have hbegun : ¬(spaced front).isEmpty = true := by simpa using spaced_ne_nil hempty hfront
      have hroom : width (spaced front) + 1 + width word = rowColumns (front ++ [word]) := by
        rw [width_spaced, rowColumns_concat hempty]
      rw [filled, if_neg hbegun, hroom]
      by_cases hfull : limit < rowColumns (front ++ [word])
      · rw [if_pos hfull, hrows]
        exact ⟨front :: rows, rfl, hcut.cons hempty hfits hfull⟩
      · have hlonger : ∀ w ∈ front ++ [word], w ≠ [] := List.forall_mem_append.mpr ⟨hfront, halone⟩
        have hmore := ih hlonger hws.2 fun _ => Nat.le_of_not_lt hfull
        rw [spaced_concat hempty, List.append_assoc, List.singleton_append] at hmore
        rwa [if_neg hfull]

end Rows

/-- Lines that hold all words in order and no more, each with as many as its columns allow. -/
structure SetGreedily (limit : Nat) (ws : List Text) (lines : List Text) : Prop where
  spaced_eq : spaced lines = spaced ws
  flatMap_words : lines.flatMap words = ws
  ne_nil : [] ∉ lines
  /-- A line holds its words and the blanks between them, and is as wide as these. -/
  width_eq : ∀ line ∈ lines, line = spaced (words line) ∧ width line = rowColumns (words line)
  fits : ∀ line ∈ lines, 1 < (words line).length → rowColumns (words line) ≤ limit
  full : lines.IsChain fun line next =>
    ∃ word more, words next = word :: more ∧ limit < rowColumns (words line ++ [word])

/-- A text that is set in lines keeps every word, and no line could take a word more. -/
theorem setGreedily_wrap (t : Text) (limit : Nat) :
    SetGreedily (max limit 10) (words t) (wrap t limit) := by
  have hwords : ∀ word ∈ words t, IsWord word := fun _ => isWord_of_mem_words
  have hne : ∀ word ∈ words t, word ≠ [] := fun word hword => (hwords word hword).ne_nil
  have hfront : ∀ word ∈ ([] : List Text), word ≠ [] := by simp
  have hnone : 1 < ([] : List Text).length → rowColumns [] ≤ max limit 10 := by simp
  obtain ⟨rows, hrows, hcut⟩ := exists_filled_eq hfront hne hnone
  rw [List.nil_append] at hcut
  have hlines : wrap t limit = rows.map spaced := hrows
  have hback : ∀ row ∈ rows, words (spaced row) = row := fun row hrow =>
    words_spaced fun word hword => hwords word (hcut.flatten ▸ List.mem_flatten_of_mem hrow hword)
  rw [hlines]
  constructor
  case spaced_eq => rw [spaced_map_spaced hcut.ne_nil, hcut.flatten]
  case flatMap_words => rw [← hlines, flatMap_words_wrap]
  case ne_nil =>
    intro hmem
    obtain ⟨row, hrow, hempty⟩ := List.mem_map.mp hmem
    exact hcut.ne_nil (by rwa [← hback row hrow, hempty, words_nil] at hrow)
  case width_eq =>
    refine List.forall_mem_map.mpr fun row hrow => ?_
    rw [hback row hrow]
    exact ⟨rfl, width_spaced row⟩
  case fits =>
    refine List.forall_mem_map.mpr fun row hrow => ?_
    rw [hback row hrow]
    exact hcut.fits row hrow
  case full =>
    rw [List.isChain_map]
    refine hcut.full.imp_of_mem_imp fun row next hrow hnext hfull => ?_
    rwa [hback row hrow, hback next hnext]

example : wrap "aaa bbb ccc" 10 = ["aaa bbb".toList, "ccc".toList] := by
  decide

end LineShell.Text

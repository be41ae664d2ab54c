import LineShell.Help.Page
import LineShell.Proofs.Text.Frame
import LineShell.Proofs.Text.Wrap

/-! Which names and descriptions the pages of the help have room for. A description is set in lines,
but a name stands whole in the title, in the message and, twice, in the last line, so that a long
one makes the frame stick out. -/

namespace LineShell.Help

open Text

theorem standsAlone_quote : StandsAlone '\'' :=
  standsAlone_of_le (by decide) (by decide) (by decide) (by decide)

section Width

/-- The columns of what stands around a name. -/
private theorem width_around :
    width "HELP: ".toList = 6 ∧ width " (system command)".toList = 17 ∧
      width "Run '".toList = 5 ∧ width " --help' or 'man ".toList = 17 ∧
      width "' for the full manual.".toList = 22 ∧ width "Command '".toList = 9 ∧
      width "' not found".toList = 11 := by
  decide +kernel

theorem width_heading (t : Text) : width ("HELP: ".toList ++ t) = width t + 6 := by
  rw [standsAlone_blank.width_behind (by decide), width_around.1, Nat.add_comm]

theorem width_title (name : Text) :
    width ("HELP: " ++ name ++ " (system command)") = width name + 23 := by
  obtain ⟨-, hback, -⟩ := width_around
  rw [List.append_assoc, width_heading, standsAlone_blank.width_ahead _ (by decide), hback]

theorem width_run (t : Text) : width ("Run '".toList ++ t) = width t + 5 := by
  obtain ⟨-, -, hfront, -⟩ := width_around
  rw [standsAlone_quote.width_behind (by decide), hfront, Nat.add_comm]

/-- The last line has the name twice. -/
theorem width_manualNote (name : Text) :
    width ("Run '" ++ name ++ " --help' or 'man " ++ name ++ "' for the full manual.") =
      2 * width name + 44 := by
  obtain ⟨-, -, -, hbetween, hback, -⟩ := width_around
  simp only [List.append_assoc]
  rw [width_run, standsAlone_blank.width_ahead _ rfl,
    standsAlone_blank.width_behind (by decide), standsAlone_quote.width_ahead _ (by decide),
    hbetween, hback]
  omega

theorem width_command (t : Text) : width ("Command '".toList ++ t) = width t + 9 := by
  obtain ⟨-, -, -, -, -, hfront, -⟩ := width_around
  rw [standsAlone_quote.width_behind (by decide), hfront, Nat.add_comm]

theorem width_notFound (t : Text) : width (t ++ "' not found".toList) = width t + 11 := by
  obtain ⟨-, -, -, -, -, -, hback⟩ := width_around
  rw [standsAlone_quote.width_ahead _ (by decide), hback]

end Width

variable {w : Nat}

/-- The lines of a description fit just if each of its words does. -/
theorem rectangular_description_iff (hw : narrowestPage ≤ w) (description : Text) :
    (∀ f ∈ (wrap description (inside w - 2)).map Framed.text,
        Rectangular w (f.line false (inside w))) ↔
      ∀ word ∈ words description, width word + 3 ≤ w := by
  have hw : 60 ≤ w := hw
  have hlimit : max (inside w - 2) narrowest ≤ w - 3 := by
    rw [inside, narrowest]
    omega
  have hwords := forall_width_wrap_le_iff (t := description) hlimit
  simp only [Nat.le_sub_iff_add_le (show 3 ≤ w by omega)] at hwords
  rw [List.forall_mem_map, ← hwords]
  refine forall₂_congr fun l hl => ?_
  rw [Framed.rectangular_text_iff, fits_iff_of_notMem (lineFeed_notMem_wrap _ _ l hl)]

/-- Title and last line both break where the name does, but in front of that the title is the longer
one. -/
theorem not_fits_of_lineFeed {name : Text} (hname : '\n' ∈ name)
    (htitle : Rectangular w ((Framed.centered (inside w)
      ("HELP: " ++ name ++ " (system command)")).line false (inside w))) :
    ¬Fits w ("Run '" ++ name ++ " --help' or 'man " ++ name ++ "' for the full manual.") := by
  intro hnote
  obtain ⟨a, b, rfl, ha⟩ := List.eq_append_cons_of_mem hname
  have hfront (n : Nat) : '\n' ∉ blanks n ++ ("HELP: ".toList ++ a) := by
    simp only [List.mem_append, not_or]
    exact ⟨notMem_blanks (by decide) n, by decide, ha⟩
  have hrun : '\n' ∉ "Run '".toList ++ a := by
    rw [List.mem_append]
    exact not_or.mpr ⟨by decide, ha⟩
  rw [Framed.centered, Framed.rectangular_row_iff, Framed.plain_centered] at htitle
  simp only [List.append_assoc, List.cons_append] at htitle hnote
  rw [← List.append_assoc, ← List.append_assoc, List.append_assoc (blanks _)] at htitle
  rw [← List.append_assoc] at hnote
  have hfirst := htitle.first (hfront _)
  have hlast := hnote.first hrun
  rw [width_blanks_append, width_heading a] at hfirst
  rw [width_run] at hlast
  omega

/-- The page of a program is a rectangle just if the name is on one line with room for it in the
last line, and every word of the description is narrower than the frame. -/
theorem rectangular_programPage_iff (hw : narrowestPage ≤ w) (name description : Text) :
    Rectangular w (programPage false w name description) ↔
      '\n' ∉ name ∧ 2 * width name + 47 ≤ w ∧ ∀ word ∈ words description, width word + 3 ≤ w := by
  have hframe : 2 ≤ w := Nat.le_trans (by decide) hw
  rw [programPage, rectangular_frame_iff hframe, programContent]
  simp only [List.forall_mem_append, List.forall_mem_cons, List.not_mem_nil, false_imp_iff,
    implies_true, and_true, rectangular_description_iff hw, Framed.rectangular_rule hframe,
    true_and, Framed.rectangular_text_iff]
  by_cases hname : '\n' ∈ name
  · refine iff_of_false ?_ fun h => h.1 hname
    rintro ⟨⟨htitle, -⟩, hnote⟩
    exact not_fits_of_lineFeed hname htitle hnote
  · have htitle : '\n' ∉ "HELP: ".toList ++ name ++ " (system command)".toList := by
      simp only [List.mem_append, not_or]
      exact ⟨⟨by decide, hname⟩, by decide⟩
    have hnote : '\n' ∉ "Run '".toList ++ name ++ " --help' or 'man ".toList ++ name ++
        "' for the full manual.".toList := by
      simp only [List.mem_append, not_or]
      exact ⟨⟨⟨⟨by decide, hname⟩, by decide⟩, hname⟩, by decide⟩
    rw [Framed.rectangular_centered_iff htitle, fits_iff_of_notMem hnote, width_title,
      width_manualNote]
    constructor
    · rintro ⟨⟨-, hwords⟩, hroom⟩
      exact ⟨hname, hroom, hwords⟩
    · rintro ⟨-, hroom, hwords⟩
      exact ⟨⟨by omega, hwords⟩, hroom⟩

/-- The message of the other page fits on one line, or is broken by line feeds of the name in such
a way that each of its lines is as wide as the frame. -/
theorem fits_notFound_iff (name : Text) :
    Fits w ("Command '" ++ name ++ "' not found") ↔
      ('\n' ∉ name ∧ width name + 23 ≤ w) ∨
        ∃ first middle last, name.splitOn '\n' = first :: (middle ++ [last]) ∧
          width first + 11 = w ∧ (∀ m ∈ middle, width m = w) ∧ width last + 12 = w := by
  rw [List.append_assoc]
  by_cases hname : '\n' ∈ name
  · obtain ⟨first, middle, last, hsplit⟩ := exists_splitOn_of_mem hname
    have hmem : '\n' ∈ "Command '".toList ++ (name ++ "' not found".toList) :=
      List.mem_append_right _ (List.mem_append_left _ hname)
    rw [Fits, or_iff_right fun h => h.1 hmem, or_iff_right fun h => h.1 hname,
      exists_ends_iff (splitOn_between (by decide) (by decide) hsplit), exists_ends_iff hsplit,
      width_command, width_notFound]
  · have hnone : '\n' ∉ "Command '".toList ++ (name ++ "' not found".toList) := by
      simp only [List.mem_append, not_or]
      exact ⟨by decide, hname, by decide⟩
    rw [fits_iff_of_notMem hnone, width_command, width_notFound, or_iff_left, and_iff_right hname]
    rintro ⟨first, middle, last, hsplit, -⟩
    rw [List.splitOn_eq_singleton hname] at hsplit
    simpa using congrArg List.length hsplit

theorem rectangular_unknownPage_iff (hw : narrowestPage ≤ w) (name : Text) :
    Rectangular w (unknownPage false w name) ↔ Fits w ("Command '" ++ name ++ "' not found") := by
  have hw : 60 ≤ w := hw
  have hnone : '\n' ∉ "Type 'help' for a list of available commands.".toList := by decide
  have hwidth : width "Type 'help' for a list of available commands.".toList = 45 := by
    decide +kernel
  rw [unknownPage, rectangular_frame_iff (by omega), unknownContent, List.forall_mem_cons,
    List.forall_mem_singleton, Framed.rectangular_row_iff, Framed.rectangular_text_iff,
    fits_iff_of_notMem hnone, hwidth, Framed.plain_styled, and_iff_left (by omega)]

/-- What the two pages about a name that no command has ask for, so that they are rectangles. -/
theorem pages_rectangular_iff (hw : narrowestPage ≤ w) (name description : Text) :
    (Rectangular w (programPage false w name description) ↔
        '\n' ∉ name ∧ 2 * width name + 47 ≤ w ∧
          ∀ word ∈ words description, width word + 3 ≤ w) ∧
      (Rectangular w (unknownPage false w name) ↔
        ('\n' ∉ name ∧ width name + 23 ≤ w) ∨
          ∃ first middle last, name.splitOn '\n' = first :: (middle ++ [last]) ∧
            width first + 11 = w ∧ (∀ m ∈ middle, width m = w) ∧ width last + 12 = w) :=
  ⟨rectangular_programPage_iff hw name description,
    (rectangular_unknownPage_iff hw name).trans (fits_notFound_iff name)⟩

/-- A name of letters that take two columns each. -/
theorem pages_rectangular_wide :
    narrowestPage ≤ 60 ∧
      Rectangular 60 (programPage false 60 "日本語" "Runs programs.") ∧
      Rectangular 60 (unknownPage false 60 "日本語") := by
  have hroom : '\n' ∉ "日本語".toList ∧ 2 * width "日本語" + 47 ≤ 60 ∧
      ∀ word ∈ words "Runs programs.", width word + 3 ≤ 60 := by
    decide +kernel
  have hpages := pages_rectangular_iff (w := 60) (Nat.le_refl _) "日本語" "Runs programs."
  exact ⟨Nat.le_refl _, hpages.1.mpr hroom, hpages.2.mpr (.inl ⟨hroom.1, by omega⟩)⟩

/-- In the narrowest frame there is no room for a name of seven letters twice. -/
theorem programPage_sticksOut :
    narrowestPage ≤ 60 ∧
      ¬Rectangular 60 (programPage false 60 "python3" "Runs programs.") := by
  refine ⟨Nat.le_refl _, fun hrectangular => ?_⟩
  have hroom := ((rectangular_programPage_iff (Nat.le_refl _) _ _).mp hrectangular).2.1
  exact absurd hroom (by decide +kernel)

end LineShell.Help

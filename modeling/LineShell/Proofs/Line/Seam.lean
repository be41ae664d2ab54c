import LineShell.Proofs.Line.Trim

/-! Two lines with blanks between them. The tokens of the whole are those of the one and then those
of the other exactly where the first line leaves no quote open and ends inside no escape. -/

namespace LineShell.Line

/-- A gap parts what is on its two sides. -/
theorem group_append_gap (parts rest : List Lexeme) :
    group (parts ++ .gap :: rest) = group parts ++ group rest := by
  have hends : EndsWord (parts ++ [.gap]) := by simp [EndsWord]
  have hparts : group (parts ++ [.gap]) = group parts := group_gaps parts 1
  rw [List.append_cons, group_append hends, hparts]

/-- One letter more makes other tokens. -/
theorem group_append_letter_ne (parts : List Lexeme) (c : Char) :
    group (parts ++ [.letter c]) ≠ group parts := by
  obtain ⟨before, letters, rfl, hends⟩ := exists_letters parts
  intro h
  rw [List.append_assoc, ← List.map_singleton (f := Lexeme.letter), ← List.map_append,
    group_append hends, group_append hends, group_map_letter, group_map_letter] at h
  cases letters with
  | nil => simp [close] at h
  | cons d letters => simp [close] at h

/-- A line leaves the mode outside quotes, and ends inside no escape, exactly if it can be followed
by blanks and any other line, and all tokens are those of the two lines. -/
theorem tokenize_seam_iff (a : Text) :
    modeAfter .bare a = (.bare, false) ↔
      ∀ gap b, IsGap gap → tokenize (a ++ gap ++ b) = tokenize a ++ tokenize b := by
  constructor
  · rintro ha gap b ⟨hne, hgap⟩
    obtain ⟨c, gap, rfl⟩ := List.exists_cons_of_ne_nil hne
    have hc : Text.isBlank c = true := hgap c List.mem_cons_self
    have happart : Apart a (c :: gap ++ b) :=
      .of_head (fun d hd => by cases hd; exact blank_not_operatorSign hc) a
    have hread := (read_append .bare a (c :: gap ++ b) happart).1
    rw [ha, lexemesFrom, List.cons_append, lexemes_blank hc] at hread
    rw [List.append_assoc, tokenize, List.cons_append, hread, group_append_gap,
      group_lexemes_blanks gap fun d hd => hgap d (List.mem_cons_of_mem c hd)]
    rfl
  · intro h
    by_contra hleft
    have hc : Text.isBlank ' ' = true := by decide
    have hread := (read_append .bare a [' '] (.of_blanks (by simp [hc]) a)).1
    -- behind an escape or in an open quote the blank is a letter
    obtain ⟨part, role, hpart, hfrom⟩ := lexemesFrom_blank (modeAfter .bare a) hc
    obtain ⟨rfl, -⟩ := hpart.resolve_left fun hgap => hleft hgap.2.2
    rw [(hfrom []).1, lexemes] at hread
    have hsame := h [' '] [] (by decide)
    rw [List.append_nil, tokenize, hread, show tokenize [] = [] from rfl, List.append_nil,
      tokenize] at hsame
    exact group_append_letter_ne _ _ hsame

/-- Signs that would be one operator are two where a blank stands between them. -/
example : tokenize "a 2".toList ++ tokenize "> b".toList = tokenize "a 2 > b".toList := by
  decide

end LineShell.Line

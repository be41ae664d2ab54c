import LineShell.Proofs.Text.Width
import LineShell.Proofs.Text.Words
import LineShell.Text.Wrap

/-! A text set in lines of limited width. All its words are there, in order, and a line of more than
one word keeps to the limit. -/

namespace LineShell.Text

section Words

theorem words_blanks (n : Nat) : words (blanks n) = [] := by
  induction n with
  | zero => exact words_nil
  | succ n ih =>
    rw [blanks_succ, ← List.nil_append (_ :: _), words_append_blank (by decide), ih]
    rfl

theorem words_append_blanks (t : Text) (n : Nat) : words (t ++ blanks n) = words t := by
  cases n with
  | zero => rw [blanks, List.replicate_zero, List.append_nil]
  | succ n => rw [blanks_succ, words_append_blank (by decide), words_blanks, List.append_nil]

end Words

section Filled

variable {limit : Nat} {line : Text} {ws : List Text}

/-- The lines have no characters but those of the words and blanks between them. -/
theorem forall_mem_filled {P : Char → Prop} (hblank : P ' ') (hline : ∀ c ∈ line, P c)
    (hws : ∀ w ∈ ws, ∀ c ∈ w, P c) : ∀ l ∈ filled limit line ws, ∀ c ∈ l, P c := by
  fun_induction filled limit line ws with
  | case1 => simp
  | case2 line hne => exact List.forall_mem_singleton.mpr hline
  | case3 line word rest hempty ih =>
    rw [List.forall_mem_cons] at hws
    exact ih hws.1 hws.2
  | case4 line word rest hne hwide ih =>
    rw [List.forall_mem_cons] at hws
    exact List.forall_mem_cons.mpr ⟨hline, ih hws.1 hws.2⟩
  | case5 line word rest hne hfits ih =>
    rw [List.forall_mem_cons] at hws
    have hlonger : ∀ c ∈ line ++ ' ' :: word, P c :=
      List.forall_mem_append.mpr ⟨hline, List.forall_mem_cons.mpr ⟨hblank, hws.1⟩⟩
    exact ih hlonger hws.2

/-- A line holds one word or keeps to the limit. -/
theorem filled_cases : ∀ l ∈ filled limit line ws, l = line ∨ l ∈ ws ∨ width l ≤ limit := by
  fun_induction filled limit line ws with
  | case1 => simp
  | case2 line hne => simp
  | case3 line word rest hempty ih =>
    intro l hl
    rcases ih l hl with rfl | hmem | hle
    · exact .inr (.inl List.mem_cons_self)
    · exact .inr (.inl (List.mem_cons_of_mem word hmem))
    · exact .inr (.inr hle)
  | case4 line word rest hne hwide ih =>
    refine List.forall_mem_cons.mpr ⟨.inl rfl, fun l hl => ?_⟩
    rcases ih l hl with rfl | hmem | hle
    · exact .inr (.inl List.mem_cons_self)
    · exact .inr (.inl (List.mem_cons_of_mem word hmem))
    · exact .inr (.inr hle)
  | case5 line word rest hne hfits ih =>
    intro l hl
    rcases ih l hl with rfl | hmem | hle
    · rw [width_append_blank]
      exact .inr (.inr (by omega))
    · exact .inr (.inl (List.mem_cons_of_mem word hmem))
    · exact .inr (.inr hle)

/-- No line is narrower than the words on it. -/
theorem exists_le_width_filled (hws : ∀ w ∈ ws, w ≠ []) :
    (line ≠ [] → ∃ l ∈ filled limit line ws, width line ≤ width l) ∧
      ∀ w ∈ ws, ∃ l ∈ filled limit line ws, width w ≤ width l := by
  fun_induction filled limit line ws with
  | case1 line hempty => simpa using hempty
  | case2 line hne => simp
  | case3 line word rest hempty ih =>
    rw [List.forall_mem_cons] at hws ⊢
    obtain ⟨hword, hrest⟩ := ih hws.2
    exact ⟨fun hne => absurd (List.isEmpty_iff.mp hempty) hne, hword hws.1, hrest⟩
  | case4 line word rest hne hwide ih =>
    rw [List.forall_mem_cons] at hws ⊢
    obtain ⟨hword, hrest⟩ := ih hws.2
    have hlater {n : Nat} (h : ∃ l ∈ filled limit word rest, n ≤ width l) :
        ∃ l ∈ line :: filled limit word rest, n ≤ width l :=
      h.imp fun l hl => hl.imp_left (List.mem_cons_of_mem line)
    exact ⟨fun _ => ⟨line, List.mem_cons_self, Nat.le_refl _⟩, hlater (hword hws.1),
      fun w hw => hlater (hrest w hw)⟩
  | case5 line word rest hne hfits ih =>
    rw [List.forall_mem_cons] at hws ⊢
    obtain ⟨hlonger, hrest⟩ := ih hws.2
    obtain ⟨l, hl, hle⟩ := hlonger (by simp)
    rw [width_append_blank] at hle
    exact ⟨fun _ => ⟨l, hl, by omega⟩, ⟨l, hl, by omega⟩, hrest⟩

/-- All words are on the lines, in order. -/
theorem flatMap_words_filled (hws : ∀ w ∈ ws, IsWord w) :
    (filled limit line ws).flatMap words = words line ++ ws := by
  fun_induction filled limit line ws with
  | case1 line hempty =>
    rw [List.isEmpty_iff.mp hempty]
    rfl
  | case2 line hne => rw [List.flatMap_singleton, List.append_nil]
  | case3 line word rest hempty ih =>
    rw [List.forall_mem_cons] at hws
    rw [ih hws.2, hws.1.words_eq, List.isEmpty_iff.mp hempty]
    rfl
  | case4 line word rest hne hwide ih =>
    rw [List.forall_mem_cons] at hws
    rw [List.flatMap_cons, ih hws.2, hws.1.words_eq]
    rfl
  | case5 line word rest hne hfits ih =>
    rw [List.forall_mem_cons] at hws
    rw [ih hws.2, words_append_blank (by decide), hws.1.words_eq, List.append_assoc]
    rfl

end Filled

section Wrap

variable {c : Char} {t : Text} {limit : Nat}

theorem forall_mem_wrap {P : Char → Prop} (hblank : P ' ') (h : ∀ c ∈ t, P c) (limit : Nat) :
    ∀ l ∈ wrap t limit, ∀ c ∈ l, P c :=
  forall_mem_filled hblank (by simp) fun _ hw c hc => h c (mem_of_mem_words hw hc)

theorem notMem_wrap (hc : c ≠ ' ') (h : c ∉ t) (limit : Nat) : ∀ l ∈ wrap t limit, c ∉ l := by
  have hother : ∀ d ∈ t, c ≠ d := by
    rintro d hd rfl
    exact h hd
  exact fun l hl hmem => forall_mem_wrap (P := (c ≠ ·)) hc hother limit l hl c hmem rfl

/-- All blanks that part words are plain ones. -/
theorem lineFeed_notMem_wrap (t : Text) (limit : Nat) : ∀ l ∈ wrap t limit, '\n' ∉ l := by
  intro l hl hmem
  refine forall_mem_filled (P := ('\n' ≠ ·)) (by decide) (by simp) (fun w hw d hd => ?_) l hl '\n'
    hmem rfl
  rintro rfl
  exact absurd ((isWord_of_mem_words hw).unbroken '\n' hd) (by decide)

theorem flatMap_words_wrap (t : Text) (limit : Nat) : (wrap t limit).flatMap words = words t :=
  flatMap_words_filled fun _ => isWord_of_mem_words

/-- The lines keep to a width that is not below the limit just if the words do. -/
theorem forall_width_wrap_le_iff {n : Nat} (hlimit : max limit narrowest ≤ n) :
    (∀ l ∈ wrap t limit, width l ≤ n) ↔ ∀ word ∈ words t, width word ≤ n := by
  constructor
  · intro hall word hword
    have hwords : ∀ word ∈ words t, ∃ l ∈ wrap t limit, width word ≤ width l :=
      (exists_le_width_filled fun _ hw => (isWord_of_mem_words hw).ne_nil).2
    obtain ⟨l, hl, hle⟩ := hwords word hword
    exact Nat.le_trans hle (hall l hl)
  · intro hall l hl
    rcases filled_cases l hl with rfl | hmem | hle
    · exact Nat.zero_le n
    · exact hall l hmem
    · exact Nat.le_trans hle hlimit

theorem leaves_wrap {w free : Nat} (h : Printable t) (hwords : ∀ word ∈ words t, Leaves w free word)
    (hlimit : max limit narrowest + free ≤ w) : ∀ l ∈ wrap t limit, Leaves w free l := by
  have hprintable : ∀ l ∈ wrap t limit, Printable l := forall_mem_wrap (by decide) h limit
  have hwidths := (forall_width_wrap_le_iff (t := t) (Nat.le_sub_of_add_le hlimit)).mpr
    fun word hword => by
      have hroom := (hwords word hword).room
      rw [width_printable (hwords word hword).printable]
      omega
  intro l hl
  have hwidth := hwidths l hl
  rw [width_printable (hprintable l hl)] at hwidth
  exact ⟨hprintable l hl, by omega⟩

end Wrap

end LineShell.Text

import LineShell.Proofs.Text.Trim

/-! The words of a text: what stands between its blanks. Blanks at the two ends part nothing, so
that a text of one word is that word once it is trimmed. -/

namespace LineShell.Text

section Pieces

variable {α : Type} (separates : α → Bool)

theorem mem_of_mem_splitOnP (items : List α) :
    ∀ part ∈ items.splitOnP separates, ∀ a ∈ part, a ∈ items ∧ separates a = false := by
  induction items with
  | nil => simp
  | cons b items ih =>
    rw [List.splitOnP_cons_eq_if_modifyHead]
    split
    case isTrue =>
      exact List.forall_mem_cons.mpr ⟨by simp, fun part hpart a ha =>
        (ih part hpart a ha).imp_left (List.mem_cons_of_mem b)⟩
    case isFalse hb =>
      obtain ⟨first, rest, hsplit⟩ :=
        List.exists_cons_of_ne_nil (List.splitOnP_ne_nil separates items)
      rw [hsplit, List.forall_mem_cons] at ih
      rw [hsplit, List.modifyHead_cons, List.forall_mem_cons]
      exact ⟨List.forall_mem_cons.mpr ⟨⟨List.mem_cons_self, by simpa using hb⟩, fun a ha =>
        (ih.1 a ha).imp_left (List.mem_cons_of_mem b)⟩, fun part hpart a ha =>
        (ih.2 part hpart a ha).imp_left (List.mem_cons_of_mem b)⟩

end Pieces

section Words

variable {c : Char} {t word : Text}

/-- What stands between blanks. -/
structure IsWord (t : Text) : Prop where
  ne_nil : t ≠ []
  unbroken : ∀ c ∈ t, isBlank c = false

theorem isWord_of_mem_words (h : word ∈ words t) : IsWord word := by
  obtain ⟨hmem, hne⟩ := List.mem_filter.mp h
  exact ⟨by simpa using hne, fun c hc => (mem_of_mem_splitOnP isBlank t word hmem c hc).2⟩

theorem mem_of_mem_words (h : word ∈ words t) (hc : c ∈ word) : c ∈ t :=
  (mem_of_mem_splitOnP isBlank t word (List.mem_filter.mp h).1 c hc).1

theorem words_nil : words [] = [] := by
  decide

theorem IsWord.words_eq (h : IsWord t) : words t = [t] := by
  rw [words, List.splitOnP_eq_singleton h.unbroken]
  exact List.filter_eq_self.mpr (by simpa using h.ne_nil)

theorem words_append_blank (hc : isBlank c = true) (a b : Text) :
    words (a ++ c :: b) = words a ++ words b := by
  rw [words, List.splitOnP_append_cons a b hc, List.filter_append]
  rfl

theorem words_cons_blank (hc : isBlank c = true) (t : Text) : words (c :: t) = words t :=
  words_append_blank hc [] t

theorem words_cons_ne_nil (hc : isBlank c = false) (t : Text) : words (c :: t) ≠ [] := by
  obtain ⟨first, rest, hsplit⟩ := List.exists_cons_of_ne_nil (List.splitOnP_ne_nil isBlank t)
  rw [words, List.splitOnP_cons_eq_if_modifyHead, hsplit, hc]
  simp

theorem words_eq_nil_iff : words t = [] ↔ ∀ c ∈ t, isBlank c = true := by
  induction t with
  | nil => exact iff_of_true words_nil (by simp)
  | cons c t ih =>
    rw [List.forall_mem_cons]
    cases hc : isBlank c with
    | true => rw [words_cons_blank hc, ih, and_iff_right rfl]
    | false => exact iff_of_false (words_cons_ne_nil hc t) fun h => nomatch h.1

theorem words_dropWhile (t : Text) : words (t.dropWhile isBlank) = words t := by
  induction t with
  | nil => rfl
  | cons c t ih =>
    cases hc : isBlank c with
    | true => rw [List.dropWhile_cons_of_pos hc, ih, words_cons_blank hc]
    | false => rw [List.dropWhile_cons_of_neg (by simp [hc])]

theorem words_trimEnd (t : Text) : words (trimEnd t) = words t := by
  obtain ⟨gap, hgap, hblank⟩ := exists_trimEnd t
  cases gap with
  | nil => rw [List.append_nil] at hgap; rw [← hgap]
  | cons c gap =>
    rw [List.forall_mem_cons] at hblank
    conv_rhs => rw [hgap]
    rw [words_append_blank hblank.1, words_eq_nil_iff.mpr hblank.2, List.append_nil]

theorem words_trim (t : Text) : words (trim t) = words t := by
  rw [trim, words_trimEnd, words_dropWhile]

/-- A blank inside a trimmed text has words on either side. -/
theorem words_trim_ne_singleton {front back : Text} (ht : trim t = front ++ c :: back)
    (hc : isBlank c = true) : words (trim t) ≠ [word] := by
  have hfront : words front ≠ [] := by
    rw [Ne, words_eq_nil_iff]
    intro hblank
    cases front with
    | nil => exact absurd hc (by simp [isBlank_of_head?_trim (t := t) (c := c) (by rw [ht]; rfl)])
    | cons d front =>
      have hd := isBlank_of_head?_trim (t := t) (c := d) (by rw [ht]; rfl)
      simp [hblank d List.mem_cons_self] at hd
  have hback : words back ≠ [] := by
    rw [Ne, words_eq_nil_iff]
    intro hblank
    obtain ⟨d, hd⟩ : ∃ d, (c :: back).getLast? = some d :=
      ⟨_, List.getLast?_eq_some_getLast (List.cons_ne_nil c back)⟩
    have hlast : isBlank d = false := isBlank_of_getLast?_trimEnd <| by
      rw [← trim, ht, List.getLast?_append_of_ne_nil _ (List.cons_ne_nil c back), hd]
    rcases List.mem_cons.mp (List.mem_of_getLast? hd) with rfl | hmem
    · simp [hc] at hlast
    · simp [hblank d hmem] at hlast
  rw [ht, words_append_blank hc]
  intro h
  have hlength := congrArg List.length h
  rw [List.length_append, List.length_singleton] at hlength
  have hpos := List.length_pos_iff.mpr hfront
  have hpos' := List.length_pos_iff.mpr hback
  omega

/-- A text has one word if nothing but that is left of it once it is trimmed. -/
theorem words_eq_singleton_iff : words t = [word] ↔ trim t = word ∧ IsWord word := by
  constructor
  · intro h
    have hword : IsWord word := isWord_of_mem_words (t := t) (h ▸ List.mem_singleton_self word)
    refine ⟨?_, hword⟩
    rw [← words_trim] at h
    have hunbroken : ∀ c ∈ trim t, isBlank c = false := by
      intro c hc
      rw [Bool.eq_false_iff]
      intro hblank
      obtain ⟨front, back, ht⟩ := List.append_of_mem hc
      exact words_trim_ne_singleton ht hblank h
    have hne : trim t ≠ [] := fun hnil => by
      rw [hnil, words_nil] at h
      cases h
    rw [IsWord.words_eq ⟨hne, hunbroken⟩] at h
    exact List.singleton_injective h
  · rintro ⟨rfl, hword⟩
    rw [← words_trim, hword.words_eq]

end Words

end LineShell.Text

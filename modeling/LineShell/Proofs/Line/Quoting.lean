import LineShell.Proofs.Line.Lexeme

/-! Writing tokens and reading them back. Every spelling of a word, and every run of blanks
between tokens, gives a line that is cut into the same tokens. -/

namespace LineShell.Line

/-- One blank or more. -/
def IsGap (gap : Text) : Prop :=
  gap ≠ [] ∧ ∀ c ∈ gap, Text.isBlank c = true

instance (gap : Text) : Decidable (IsGap gap) :=
  decidable_of_iff (gap ≠ [] ∧ gap.all Text.isBlank = true) (by rw [List.all_eq_true]; rfl)

/-- Nothing follows, or a blank does. -/
def EndsHere (rest : Text) : Prop :=
  ∀ d, rest.head? = some d → Text.isBlank d = true

theorem endsHere_nil : EndsHere [] := by
  intro d h
  cases h

theorem IsGap.endsHere {gap : Text} (h : IsGap gap) (rest : Text) : EndsHere (gap ++ rest) := by
  obtain ⟨hne, hall⟩ := h
  intro d hd
  cases gap with
  | nil => exact absurd rfl hne
  | cons c gap =>
    obtain rfl : c = d := by simpa using hd
    exact hall c (by simp)

private theorem lexemes_escaped (word rest : Text) :
    lexemes .bare (Spelling.escaped.write word ++ rest) =
      word.map .letter ++ lexemes .bare rest := by
  induction word with
  | nil => rfl
  | cons c word ih =>
    change lexemes .bare ('\\' :: c :: (Spelling.escaped.write word ++ rest)) = _
    rw [lexemes_escape, ih]
    rfl

/-- Inside quotes, what is guarded against their sign is a row of letters. -/
private theorem lexemes_guarded (mode : Mode) (quote : Char) (rest : Text)
    (hletter : ∀ c, c ≠ quote → c ≠ '\\' → ∀ rest,
      lexemes mode (c :: rest) = .letter c :: lexemes mode rest) (word : Text) :
    lexemes mode (guarded quote word ++ rest) = word.map .letter ++ lexemes mode rest := by
  induction word with
  | nil => rfl
  | cons c word ih =>
    rw [guarded, List.flatMap_cons, ← guarded]
    split
    case isTrue =>
      change lexemes mode ('\\' :: c :: (guarded quote word ++ rest)) = _
      rw [lexemes_escape, ih]
      rfl
    case isFalse h =>
      rw [not_or] at h
      change lexemes mode (c :: (guarded quote word ++ rest)) = _
      rw [hletter c h.1 h.2, ih]
      rfl

/-- Whatever its spelling, a word is read as its letters. -/
theorem lexemes_spelled (s : Spelling) (word rest : Text) :
    lexemes .bare (s.write word ++ rest) = word.map .letter ++ lexemes .bare rest := by
  cases s with
  | escaped => exact lexemes_escaped word rest
  | doubleQuoted =>
    have hin := lexemes_guarded .double '"' ('"' :: rest)
      (fun c hc hs rest => by rw [lexemes_double c hs, if_neg hc]) word
    have hout : lexemes .double ('"' :: rest) = lexemes .bare rest := by
      rw [lexemes_double _ (by decide), if_pos rfl]
    change lexemes .bare ('"' :: (guarded '"' word ++ ['"'] ++ rest)) = _
    rw [lexemes_open_double, List.append_assoc, List.singleton_append, hin, hout]
  | singleQuoted =>
    have hin := lexemes_guarded .single '\'' ('\'' :: rest)
      (fun c hc hs rest => by rw [lexemes_single c hs, if_neg hc]) word
    have hout : lexemes .single ('\'' :: rest) = lexemes .bare rest := by
      rw [lexemes_single _ (by decide), if_pos rfl]
    change lexemes .bare ('\'' :: (guarded '\'' word ++ ['\''] ++ rest)) = _
    rw [lexemes_open_single, List.append_assoc, List.singleton_append, hin, hout]

/-- Letters that nothing but a blank follows are a word of their own. -/
theorem group_letters (word : Text) (hne : word ≠ []) {rest : Text} (h : EndsHere rest) :
    group (word.map .letter ++ lexemes .bare rest) =
      .word word :: group (lexemes .bare rest) := by
  cases rest with
  | nil =>
    rw [lexemes, List.append_nil, group_word word hne]
    rfl
  | cons d rest =>
    rw [lexemes_blank (h d rfl), group_word_gap word hne, group_gap]

/-- Blanks in front of a line make no token. -/
theorem group_lexemes_blanks (gap : Text) (h : ∀ c ∈ gap, Text.isBlank c = true) (rest : Text) :
    group (lexemes .bare (gap ++ rest)) = group (lexemes .bare rest) := by
  induction gap with
  | nil => rfl
  | cons c gap ih =>
    rw [List.cons_append, lexemes_blank (h c (by simp)), group_gap]
    exact ih fun d hd => h d (by simp [hd])

/-- A token that nothing but a blank follows is read as it was meant. -/
theorem group_lexemes_written (w : Written) (hw : w.token ≠ .word []) {rest : Text}
    (h : EndsHere rest) :
    group (lexemes .bare (w.text ++ rest)) = w.token :: group (lexemes .bare rest) := by
  cases w with
  | word s word =>
    have hne : word ≠ [] := fun hnil => hw (by rw [Written.token, hnil])
    rw [Written.text, lexemes_spelled, group_letters word hne h]
    rfl
  | operator op =>
    have hop : ∀ d, rest.head? = some d → d ∉ operatorSigns :=
      fun d hd => blank_not_operatorSign (h d hd)
    rw [Written.text, lexemes_operator op hop, group_operator]
    rfl

/-- Written tokens in front of blanks, or of nothing, are read one after another. -/
theorem group_lexemes_write (items : List (Written × Text))
    (hwords : ∀ i ∈ items, i.1.token ≠ .word []) (hgaps : ∀ i ∈ items.dropLast, IsGap i.2)
    {rest : Text} (h : EndsHere rest) :
    group (lexemes .bare (write items ++ rest)) =
      items.map (·.1.token) ++ group (lexemes .bare rest) := by
  induction items with
  | nil => rfl
  | cons i items ih =>
    obtain ⟨w, gap⟩ := i
    have hw : w.token ≠ .word [] := hwords (w, gap) (by simp)
    cases items with
    | nil => exact group_lexemes_written w hw h
    | cons j items =>
      have hgap : IsGap gap := hgaps (w, gap) (by simp)
      have htail := ih (fun i hi => hwords i (List.mem_cons_of_mem _ hi))
        (fun i hi => hgaps i (by simpa using .inr hi))
      rw [write, List.append_assoc, List.append_assoc,
        group_lexemes_written w hw (hgap.endsHere _), group_lexemes_blanks gap hgap.2, htail]
      · rfl
      · simp

theorem group_lexemes_write_all (items : List (Written × Text))
    (hwords : ∀ i ∈ items, i.1.token ≠ .word []) (hgaps : ∀ i ∈ items.dropLast, IsGap i.2) :
    group (lexemes .bare (write items)) = items.map (·.1.token) := by
  have h := group_lexemes_write items hwords hgaps endsHere_nil
  rwa [List.append_nil, show group (lexemes .bare []) = [] from rfl, List.append_nil] at h

/-- Words in any of the three spellings and operators, with blanks between neighbours, make a line
that is cut into just these tokens: a word stays one word even where it spells an operator. -/
theorem tokenize_write (items : List (Written × Text))
    (hwords : ∀ i ∈ items, i.1.token ≠ .word []) (hgaps : ∀ i ∈ items.dropLast, IsGap i.2) :
    tokenize (write items) = items.map (·.1.token) := by
  rw [tokenize, group_lexemes_write_all items hwords hgaps]

/-- Words that look like operators, quotes and escapes, among operators. -/
def lookalikes : List (Written × Text) :=
  [(.word .doubleQuoted ['>', '>', '"'], [' ', '\t']), (.operator .append, ['\n']),
   (.word .singleQuoted ['a', ' ', '\''], [' ']), (.word .escaped ['\\', '2', '>'], [' ', ' ']),
   (.operator .errors, [' ']), (.operator .overwrite, [])]

theorem tokenize_write_lookalikes :
    (∀ i ∈ lookalikes, i.1.token ≠ .word []) ∧ (∀ i ∈ lookalikes.dropLast, IsGap i.2) ∧
      tokenize (write lookalikes) =
        [.word ['>', '>', '"'], .operator .append, .word ['a', ' ', '\''],
         .word ['\\', '2', '>'], .operator .errors, .operator .overwrite] :=
  ⟨by decide, by decide, tokenize_write lookalikes (by decide) (by decide)⟩

end LineShell.Line

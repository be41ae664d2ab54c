import LineShell.Proofs.Line.Mark

/-! What becomes of the characters of a line when it is cut into tokens. The marks of the line fall
into stretches, one for each token and some between tokens, so that nothing is lost, nothing is
added, and no operator is taken for a part of a word. -/

namespace LineShell.Line

/-- No operator begins at any of these marks in front of others. -/
def NoOperator : List Mark → List Mark → Prop
  | [], _ => True
  | m :: ms, rest => operatorAt (m :: ms ++ rest) = none ∧ NoOperator ms rest

/-- Marks that stand next to each other in a line, and the token that they make, if any. -/
structure Stretch where
  marks : List Mark
  token : Option Token

/-- A stretch is read rightly in front of other marks: a word is what is kept of it, an operator is
the one that begins there, and what makes no token keeps nothing. -/
def Stretch.Fits (s : Stretch) (rest : List Mark) : Prop :=
  match s.token with
  | none => keptText s.marks = [] ∧ NoOperator s.marks rest
  | some (.word w) => w ≠ [] ∧ keptText s.marks = w ∧ NoOperator s.marks rest
  | some (.operator op) =>
    s.marks = op.text.map (⟨·, .bare⟩) ∧ operatorAt (s.marks ++ rest) = some op

/-- Stretches that are read rightly one after another. -/
def Fit : List Stretch → Prop
  | [] => True
  | s :: rest => s.Fits (rest.flatMap Stretch.marks) ∧ Fit rest

/-- The characters that a lexeme stands for. -/
def Lexeme.text : Lexeme → Text
  | .letter c => [c]
  | .operator op => op.text
  | .gap => []

theorem keptText_append (ms ns : List Mark) : keptText (ms ++ ns) = keptText ms ++ keptText ns := by
  simp [keptText]

/-- A step keeps what its lexeme stands for. -/
theorem Step.keptText {mode mode' : Mode} {line rest : Text} {ms : List Mark}
    {lexeme : Option Lexeme} (h : Step mode line ms lexeme mode' rest) :
    Line.keptText ms = lexeme.toList.flatMap Lexeme.text := by
  cases h with
  | pair h =>
    simp only [Option.toList, List.flatMap_cons, List.flatMap_nil, Lexeme.text,
      Operator.text_of_ofPair? h]
    rfl
  | lone h hnext =>
    simp only [Option.toList, List.flatMap_cons, List.flatMap_nil, Lexeme.text,
      Operator.text_of_ofChar? h]
    rfl
  | _ => rfl

theorem keptText_marks (mode : Mode) (line : Text) :
    keptText (marks mode line) = (lexemes mode line).flatMap Lexeme.text := by
  induction mode, line using step_induction with
  | nil mode => simp [marks, lexemes, keptText]
  | step h ih => rw [h.marks, h.lexemes, keptText_append, h.keptText, ih, List.flatMap_append]

theorem text_close (letters : Text) (tokens : List Token) :
    (close letters tokens).flatMap Token.text = letters ++ tokens.flatMap Token.text := by
  cases letters <;> simp [close, Token.text]

theorem text_grouped (parts : List Lexeme) :
    (grouped parts).1 ++ (grouped parts).2.flatMap Token.text = parts.flatMap Lexeme.text := by
  induction parts with
  | nil => rfl
  | cons part parts ih =>
    cases part with
    | letter c => simpa [grouped, Lexeme.text] using ih
    | gap => simpa [grouped, Lexeme.text, text_close] using ih
    | operator op => simpa [grouped, Lexeme.text, Token.text, text_close] using ih

/-- The texts of the tokens are what is kept of the line. -/
theorem text_tokenize (line : Text) :
    (tokenize line).flatMap Token.text = keptText (marks .bare line) := by
  rw [tokenize, group, text_close, text_grouped, keptText_marks]

theorem nil_not_mem_close {letters : Text} {tokens : List Token} (h : .word [] ∉ tokens) :
    .word [] ∉ close letters tokens := by
  cases letters <;> simpa [close] using h

theorem nil_not_mem_group (parts : List Lexeme) : .word [] ∉ group parts := by
  have hgrouped : .word [] ∉ (grouped parts).2 := by
    induction parts with
    | nil => simp [grouped]
    | cons part parts ih =>
      cases part with
      | letter c => exact ih
      | gap => exact nil_not_mem_close ih
      | operator op => simpa [grouped] using nil_not_mem_close ih
  exact nil_not_mem_close hgrouped

/-- A step that makes no operator and no gap goes to a stretch without operators. -/
theorem NoOperator.step {mode mode' : Mode} {line rest : Text} {ms front : List Mark}
    {lexeme : Option Lexeme} {after : List Mark} (h : Step mode line ms lexeme mode' rest)
    (hrest : marks mode' rest = front ++ after) (hfront : NoOperator front after)
    (hlexeme : ∀ l, lexeme = some l → ∃ c, l = .letter c) : NoOperator (ms ++ front) after := by
  cases h with
  | dangling => exact ⟨by simp [operatorAt], hfront⟩
  | escape => exact ⟨by simp [operatorAt], by simp [operatorAt], hfront⟩
  | quote h => exact ⟨by simp [operatorAt], hfront⟩
  | quoted hc h => exact ⟨by simp [operatorAt], hfront⟩
  | blank h => obtain ⟨c, hc⟩ := hlexeme _ rfl; cases hc
  | pair h => obtain ⟨c, hc⟩ := hlexeme _ rfl; cases hc
  | lone h hnext => obtain ⟨c, hc⟩ := hlexeme _ rfl; cases hc
  | letter hc h hop hnext =>
    refine ⟨?_, hfront⟩
    change operatorAt (_ :: (front ++ after)) = none
    rw [← hrest, operatorAt_marks, hnext, hop]
    rfl

/-- A gap makes no token. -/
theorem Step.gap_fits {mode mode' : Mode} {line rest : Text} {ms : List Mark}
    (h : Step mode line ms (some .gap) mode' rest) (after : List Mark) :
    Stretch.Fits { marks := ms, token := none } after := by
  cases h with
  | blank h => exact ⟨rfl, by simp [operatorAt], trivial⟩

/-- An operator is the one that begins where it stands. -/
theorem Step.operator_fits {mode mode' : Mode} {line rest : Text} {ms : List Mark}
    {op : Operator} (h : Step mode line ms (some (.operator op)) mode' rest) :
    Stretch.Fits { marks := ms, token := some (.operator op) } (Line.marks mode' rest) := by
  cases h with
  | pair h =>
    refine ⟨by rw [Operator.text_of_ofPair? h]; rfl, ?_⟩
    simp [operatorAt, h]
  | lone h hnext =>
    refine ⟨by rw [Operator.text_of_ofChar? h]; rfl, ?_⟩
    change operatorAt (_ :: Line.marks .bare rest) = some op
    rw [operatorAt_marks, hnext, h]
    rfl

/-- The stretch of the letters in front of tokens. -/
def closing (front : List Mark) : Stretch :=
  { marks := front
    token := if (keptText front).isEmpty then none else some (.word (keptText front)) }

theorem closing_fits {front after : List Mark} (h : NoOperator front after) :
    (closing front).Fits after := by
  unfold closing Stretch.Fits
  by_cases hempty : keptText front = []
  · simp [hempty, h]
  · simp [hempty, h]

theorem tokens_closing (front : List Mark) (cut : List Stretch) :
    (closing front :: cut).filterMap Stretch.token =
      close (keptText front) (cut.filterMap Stretch.token) := by
  unfold closing close
  split <;> simp [*]

/-- Marks that are cut into those of the letters at the front and stretches that fit, where
`parts` is what they are read as. -/
def CutAs (ms : List Mark) (parts : List Lexeme) : Prop :=
  ∃ front cut, ms = front ++ cut.flatMap Stretch.marks ∧
    NoOperator front (cut.flatMap Stretch.marks) ∧ Fit cut ∧
    grouped parts = (keptText front, cut.filterMap Stretch.token)

/-- Where the letters at the front end, they are a stretch as well. -/
theorem CutAs.closed {ms : List Mark} {parts : List Lexeme} (h : CutAs ms parts) :
    ∃ cut, ms = cut.flatMap Stretch.marks ∧ Fit cut ∧
      group parts = cut.filterMap Stretch.token := by
  obtain ⟨front, cut, rfl, hfront, hcut, hgrouped⟩ := h
  refine ⟨closing front :: cut, rfl, ⟨closing_fits hfront, hcut⟩, ?_⟩
  rw [group, hgrouped, tokens_closing]

/-- A step makes the letters at the front more, or it ends them. -/
theorem CutAs.step {mode mode' : Mode} {line rest : Text} {ms : List Mark}
    {lexeme : Option Lexeme} (h : Step mode line ms lexeme mode' rest)
    (ih : CutAs (marks mode' rest) (lexemes mode' rest)) :
    CutAs (marks mode line) (lexemes mode line) := by
  rw [h.marks, h.lexemes]
  obtain ⟨cut', hmarks', hcut', htokens⟩ := ih.closed
  obtain ⟨front, cut, hmarks, hfront, hcut, hgrouped⟩ := ih
  have hkept := h.keptText
  match lexeme with
  | none =>
    refine ⟨ms ++ front, cut, by rw [hmarks, List.append_assoc],
      hfront.step h hmarks (by simp), hcut, ?_⟩
    rw [keptText_append, hkept]
    exact hgrouped
  | some (.letter c) =>
    refine ⟨ms ++ front, cut, by rw [hmarks, List.append_assoc],
      hfront.step h hmarks (by simp), hcut, ?_⟩
    rw [keptText_append, hkept, Option.toList_some, List.singleton_append, grouped, hgrouped]
    rfl
  | some .gap =>
    refine ⟨[], ⟨ms, none⟩ :: cut', by rw [hmarks']; rfl, trivial, ⟨h.gap_fits _, hcut'⟩, ?_⟩
    rw [Option.toList_some, List.singleton_append, grouped, List.filterMap_cons, ← htokens]
    rfl
  | some (.operator op) =>
    refine ⟨[], ⟨ms, some (.operator op)⟩ :: cut', by rw [hmarks']; rfl, trivial,
      ⟨hmarks' ▸ h.operator_fits, hcut'⟩, ?_⟩
    rw [Option.toList_some, List.singleton_append, grouped, List.filterMap_cons, ← htokens]
    rfl

theorem cutAs_lexemes (mode : Mode) (line : Text) :
    CutAs (marks mode line) (lexemes mode line) := by
  induction mode, line using step_induction with
  | nil mode =>
    exact ⟨[], [], by simp [marks], trivial, trivial, by simp [lexemes, grouped, keptText]⟩
  | step h ih => exact .step h ih

theorem operatorAt_sign {m : Mark} (hrole : m.role = .bare) (hsign : m.char = '<' ∨ m.char = '>')
    (rest : List Mark) : operatorAt (m :: rest) ≠ none := by
  obtain ⟨c, r⟩ := m
  obtain rfl : r = .bare := hrole
  have hc : Operator.ofChar? c ≠ none := by rcases hsign with rfl | rfl <;> decide
  unfold operatorAt
  split <;> simp_all

/-- Where no operator begins there is no sign of a file outside quotes. -/
theorem NoOperator.not_sign {ms rest : List Mark} (h : NoOperator ms rest) {m : Mark} (hm : m ∈ ms)
    (hrole : m.role = .bare) : ¬ (m.char = '<' ∨ m.char = '>') := by
  intro hsign
  induction ms with
  | nil => cases hm
  | cons n ms ih =>
    rcases List.mem_cons.mp hm with rfl | hm
    · exact operatorAt_sign hrole hsign _ h.1
    · exact ih h.2 hm

/-- A sign of a file outside quotes lies in the stretch of an operator. -/
theorem Fit.operator_of_sign {cut : List Stretch} (h : Fit cut) {s : Stretch} (hs : s ∈ cut)
    {m : Mark} (hm : m ∈ s.marks) (hrole : m.role = .bare) (hsign : m.char = '<' ∨ m.char = '>') :
    ∃ op, s.token = some (.operator op) := by
  induction cut with
  | nil => cases hs
  | cons t cut ih =>
    obtain ⟨hfits, hcut⟩ := h
    rcases List.mem_cons.mp hs with rfl | hs
    · unfold Stretch.Fits at hfits
      split at hfits
      case h_1 => exact absurd hsign (hfits.2.not_sign hm hrole)
      case h_2 => exact absurd hsign (hfits.2.2.not_sign hm hrole)
      case h_3 op htoken => exact ⟨op, htoken⟩
    · exact ih hcut hs

/-- The tokens of a line hold what is left of it without the escapes, the quotes that open or close
and the blanks between words. No word is empty. The line falls into stretches for the tokens and
between them: each operator is the one that begins where its stretch does, the longer before the
shorter, no operator begins in any other stretch, and so no `<` or `>` outside quotes is part of a
word. -/
theorem tokenize_conserves (line : Text) :
    (marks .bare line).map Mark.char = line ∧
      (tokenize line).flatMap Token.text = keptText (marks .bare line) ∧
      .word [] ∉ tokenize line ∧
      ∃ cut, cut.flatMap Stretch.marks = marks .bare line ∧
        cut.filterMap Stretch.token = tokenize line ∧ Fit cut ∧
        ∀ s ∈ cut, ∀ m ∈ s.marks, m.role = .bare → m.char = '<' ∨ m.char = '>' →
          ∃ op, s.token = some (.operator op) := by
  obtain ⟨cut, hmarks, hcut, htokens⟩ := (cutAs_lexemes .bare line).closed
  exact ⟨map_char_marks .bare line, text_tokenize line, nil_not_mem_group _, cut, hmarks.symm,
    htokens.symm, hcut, fun s hs m hm => hcut.operator_of_sign hs hm⟩

end LineShell.Line

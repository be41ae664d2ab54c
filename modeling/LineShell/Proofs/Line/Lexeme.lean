import LineShell.Line.Quoting

/-! How the lexemes of a line depend on its first characters, and how lexemes are put together.
Each way to begin a line has one equation, so that longer pieces are read one after another. -/

namespace LineShell.Line

/-- The characters that an operator can begin with. -/
def operatorSigns : List Char := ['>', '<', '2', '&']

/-- The characters that quote: the two quotation marks and the backslash. -/
def quotingSigns : List Char := ['\'', '"', '\\']

/-- A character that is a letter wherever it stands. -/
def IsPlain (c : Char) : Prop :=
  Text.isBlank c = false ∧ c ∉ operatorSigns ∧ c ∉ quotingSigns

instance (c : Char) : Decidable (IsPlain c) := by
  unfold IsPlain; infer_instance

theorem ofPair?_eq_none {c : Char} (h : c ∉ operatorSigns) (d : Char) :
    Operator.ofPair? c d = none := by
  simp only [operatorSigns, List.mem_cons, List.not_mem_nil, or_false, not_or] at h
  unfold Operator.ofPair?
  split <;> simp_all

theorem ofChar?_eq_none {c : Char} (h : c ∉ operatorSigns) : Operator.ofChar? c = none := by
  simp only [operatorSigns, List.mem_cons, List.not_mem_nil, or_false, not_or] at h
  unfold Operator.ofChar?
  split <;> simp_all

theorem blank_not_operatorSign {c : Char} (h : Text.isBlank c = true) : c ∉ operatorSigns := by
  intro hc
  simp only [operatorSigns, List.mem_cons, List.not_mem_nil, or_false] at hc
  rcases hc with rfl | rfl | rfl | rfl <;> exact absurd h (by decide)

theorem blank_not_quotingSign {c : Char} (h : Text.isBlank c = true) : c ∉ quotingSigns := by
  intro hc
  simp only [quotingSigns, List.mem_cons, List.not_mem_nil, or_false] at hc
  rcases hc with rfl | rfl | rfl <;> exact absurd h (by decide)

/-- An escape makes a letter in every mode. -/
theorem lexemes_escape (mode : Mode) (c : Char) (rest : Text) :
    lexemes mode ('\\' :: c :: rest) = .letter c :: lexemes mode rest := by
  rw [lexemes]

/-- Any other character is told apart by the mode and the character behind it. -/
theorem lexemes_cons (mode : Mode) {c : Char} (hc : c ≠ '\\') (rest : Text) :
    lexemes mode (c :: rest) =
      (classify mode c rest.head?).2.1.toList ++
        lexemes (classify mode c rest.head?).1
          (if (classify mode c rest.head?).2.2 then rest.tail else rest) := by
  cases rest with
  | nil => cases h : (classify mode c none).2.2 <;> simp [lexemes, h]
  | cons d rest =>
    rw [lexemes]
    · simp only [List.head?_cons, List.tail_cons]
      split <;> simp_all
    all_goals simp_all

/-- Outside quotes a character that begins no operator is a quote, a gap or a letter. -/
theorem classify_bare {c : Char} (h : c ∉ operatorSigns) (next : Option Char) :
    classify .bare c next =
      if c = '\'' then (.single, none, false)
      else if c = '"' then (.double, none, false)
      else if Text.isBlank c then (.bare, some .gap, false)
      else (.bare, some (.letter c), false) := by
  have hpair : next.bind (Operator.ofPair? c) = none := by
    cases next with
    | none => rfl
    | some d => exact ofPair?_eq_none h d
  simp only [classify, hpair, ofChar?_eq_none h]

theorem lexemes_plain {c : Char} (hc : IsPlain c) (rest : Text) :
    lexemes .bare (c :: rest) = .letter c :: lexemes .bare rest := by
  obtain ⟨hblank, hop, hquote⟩ := hc
  simp only [quotingSigns, List.mem_cons, List.not_mem_nil, or_false, not_or] at hquote
  rw [lexemes_cons .bare hquote.2.2, classify_bare hop]
  simp [hquote, hblank]

theorem lexemes_blank {c : Char} (hc : Text.isBlank c = true) (rest : Text) :
    lexemes .bare (c :: rest) = .gap :: lexemes .bare rest := by
  have hquote := blank_not_quotingSign hc
  simp only [quotingSigns, List.mem_cons, List.not_mem_nil, or_false, not_or] at hquote
  rw [lexemes_cons .bare hquote.2.2, classify_bare (blank_not_operatorSign hc)]
  simp [hquote, hc]

/-- A quotation mark outside quotes opens a quotation of its kind. -/
theorem lexemes_open_double (rest : Text) :
    lexemes .bare ('"' :: rest) = lexemes .double rest := by
  rw [lexemes_cons .bare (by decide), classify_bare (by decide)]
  simp

theorem lexemes_open_single (rest : Text) :
    lexemes .bare ('\'' :: rest) = lexemes .single rest := by
  rw [lexemes_cons .bare (by decide), classify_bare (by decide)]
  simp

theorem lexemes_double (c : Char) (hc : c ≠ '\\') (rest : Text) :
    lexemes .double (c :: rest) =
      if c = '"' then lexemes .bare rest else .letter c :: lexemes .double rest := by
  rw [lexemes_cons .double hc, classify]
  split <;> simp

theorem lexemes_single (c : Char) (hc : c ≠ '\\') (rest : Text) :
    lexemes .single (c :: rest) =
      if c = '\'' then lexemes .bare rest else .letter c :: lexemes .single rest := by
  rw [lexemes_cons .single hc, classify]
  split <;> simp

theorem lexemes_pair {c d : Char} {op : Operator} (h : Operator.ofPair? c d = some op)
    (hc : c ≠ '\\') (rest : Text) :
    lexemes .bare (c :: d :: rest) = .operator op :: lexemes .bare rest := by
  rw [lexemes_cons .bare hc, classify]
  simp [h]

theorem lexemes_lone {c : Char} {op : Operator} (h : Operator.ofChar? c = some op)
    (hc : c ≠ '\\') {rest : Text} (hnext : rest.head?.bind (Operator.ofPair? c) = none) :
    lexemes .bare (c :: rest) = .operator op :: lexemes .bare rest := by
  rw [lexemes_cons .bare hc, classify, hnext]
  simp [h]

theorem lone_of_head {rest : Text} (h : ∀ d, rest.head? = some d → d ∉ operatorSigns) (c : Char)
    (hc : c = '>' ∨ c = '<') : rest.head?.bind (Operator.ofPair? c) = none := by
  cases hr : rest.head? with
  | none => rfl
  | some d =>
    have hd := h d hr
    simp only [operatorSigns, List.mem_cons, List.not_mem_nil, or_false, not_or] at hd
    rcases hc with rfl | rfl <;> simp only [Option.bind_some, Operator.ofPair?] <;> split <;>
      simp_all

/-- An operator is read as it is written, unless the character behind it makes it another one. -/
theorem lexemes_operator (op : Operator) {rest : Text}
    (h : ∀ d, rest.head? = some d → d ∉ operatorSigns) :
    lexemes .bare (op.text ++ rest) = .operator op :: lexemes .bare rest := by
  cases op with
  | overwrite => exact lexemes_lone rfl (by decide) (lone_of_head h '>' (.inl rfl))
  | input => exact lexemes_lone rfl (by decide) (lone_of_head h '<' (.inr rfl))
  | append => exact lexemes_pair (c := '>') (d := '>') rfl (by decide) rest
  | errors => exact lexemes_pair (c := '2') (d := '>') rfl (by decide) rest
  | both => exact lexemes_pair (c := '&') (d := '>') rfl (by decide) rest
  | duplicateOutput => exact lexemes_pair (c := '>') (d := '&') rfl (by decide) rest
  | duplicateInput => exact lexemes_pair (c := '<') (d := '&') rfl (by decide) rest
  | readWrite => exact lexemes_pair (c := '<') (d := '>') rfl (by decide) rest
  | hereDocument => exact lexemes_pair (c := '<') (d := '<') rfl (by decide) rest

/-- The letters of a word that begins with `letters`. -/
theorem grouped_letters (letters : Text) (parts : List Lexeme) :
    grouped (letters.map .letter ++ parts) = (letters ++ (grouped parts).1, (grouped parts).2) := by
  induction letters with
  | nil => rfl
  | cons c letters ih => simp [grouped, ih]

theorem group_operator (op : Operator) (parts : List Lexeme) :
    group (.operator op :: parts) = .operator op :: group parts := by
  simp [group, grouped, close]

theorem group_gap (parts : List Lexeme) : group (.gap :: parts) = group parts := by
  simp [group, grouped, close]

/-- A word ends where the lexemes end, and at a gap. -/
theorem group_word (letters : Text) (h : letters ≠ []) :
    group (letters.map .letter) = [.word letters] := by
  have hparts := grouped_letters letters []
  rw [List.append_nil] at hparts
  simp [group, hparts, grouped, close, h]

theorem group_word_gap (letters : Text) (h : letters ≠ []) (parts : List Lexeme) :
    group (letters.map .letter ++ .gap :: parts) = .word letters :: group parts := by
  simp [group, grouped_letters, grouped, close, h]

end LineShell.Line

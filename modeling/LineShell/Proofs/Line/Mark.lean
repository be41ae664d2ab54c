import LineShell.Proofs.Line.Lexeme
import Mathlib.Tactic.SplitIfs

/-! How each character of a line stands: what escapes, quotes or separates, and what is left for
the tokens. A line is read in steps, and all that a step can take is listed once. -/

namespace LineShell

/-- The operator that two characters spell is written as these two. -/
theorem Operator.text_of_ofPair? {c d : Char} {op : Operator} (h : ofPair? c d = some op) :
    op.text = [c, d] := by
  unfold ofPair? at h
  split at h <;> cases h <;> rfl

theorem Operator.text_of_ofChar? {c : Char} {op : Operator} (h : ofChar? c = some op) :
    op.text = [c] := by
  unfold ofChar? at h
  split at h <;> cases h <;> rfl

namespace Line

/-- How a character of a line stands. -/
inductive Role where
  /-- A backslash in front of the character that it makes a letter, or at the end of the line. -/
  | escape
  | escaped
  /-- A quotation mark that opens or closes a quotation. -/
  | quote
  | quoted
  /-- A blank outside quotes. -/
  | blank
  | bare
  deriving DecidableEq, Repr

/-- Whether a character belongs to a token. -/
def Role.kept : Role → Bool
  | .escape | .quote | .blank => false
  | .escaped | .quoted | .bare => true

/-- A character of a line, and how it stands. -/
structure Mark where
  char : Char
  role : Role
  deriving DecidableEq, Repr

/-- How a character stands that has nothing to do with an escape, and the mode behind it. -/
def roleIn (mode : Mode) (c : Char) : Mode × Role :=
  match mode with
  | .bare =>
    if c = '\'' then (.single, .quote)
    else if c = '"' then (.double, .quote)
    else if Text.isBlank c then (.bare, .blank)
    else (.bare, .bare)
  | .single => if c = '\'' then (.bare, .quote) else (.single, .quoted)
  | .double => if c = '"' then (.bare, .quote) else (.double, .quoted)

/-- The characters of a line that is read in `mode`, each with how it stands. -/
def marks (mode : Mode) : Text → List Mark
  | [] => []
  | ['\\'] => [⟨'\\', .escape⟩]
  | '\\' :: c :: rest => ⟨'\\', .escape⟩ :: ⟨c, .escaped⟩ :: marks mode rest
  | c :: rest => ⟨c, (roleIn mode c).2⟩ :: marks (roleIn mode c).1 rest

/-- The characters that belong to tokens. -/
def keptText (ms : List Mark) : Text :=
  (ms.filter fun m => m.role.kept).map Mark.char

/-- The operator that begins a row of marks. Two characters are looked for first. -/
def operatorAt : List Mark → Option Operator
  | ⟨c, .bare⟩ :: ⟨d, .bare⟩ :: _ => (Operator.ofPair? c d).or (Operator.ofChar? c)
  | ⟨c, .bare⟩ :: _ => Operator.ofChar? c
  | _ => none

/-- A step of reading: what is taken off the front of a line, the lexeme that it makes, and the
mode and the text that are left. -/
inductive Step : Mode → Text → List Mark → Option Lexeme → Mode → Text → Prop
  | dangling {mode} : Step mode ['\\'] [⟨'\\', .escape⟩] none mode []
  | escape {mode c rest} : Step mode ('\\' :: c :: rest) [⟨'\\', .escape⟩, ⟨c, .escaped⟩]
      (some (.letter c)) mode rest
  | quote {mode mode' c rest} (h : roleIn mode c = (mode', .quote)) :
    Step mode (c :: rest) [⟨c, .quote⟩] none mode' rest
  | quoted {mode c rest} (hc : c ≠ '\\') (h : roleIn mode c = (mode, .quoted)) :
    Step mode (c :: rest) [⟨c, .quoted⟩] (some (.letter c)) mode rest
  | blank {c rest} (h : Text.isBlank c = true) :
    Step .bare (c :: rest) [⟨c, .blank⟩] (some .gap) .bare rest
  | pair {c d op rest} (h : Operator.ofPair? c d = some op) :
    Step .bare (c :: d :: rest) [⟨c, .bare⟩, ⟨d, .bare⟩] (some (.operator op)) .bare rest
  | lone {c op rest} (h : Operator.ofChar? c = some op)
    (hnext : rest.head?.bind (Operator.ofPair? c) = none) :
    Step .bare (c :: rest) [⟨c, .bare⟩] (some (.operator op)) .bare rest
  | letter {c rest} (hc : c ≠ '\\') (h : roleIn .bare c = (.bare, .bare))
    (hop : Operator.ofChar? c = none) (hnext : rest.head?.bind (Operator.ofPair? c) = none) :
    Step .bare (c :: rest) [⟨c, .bare⟩] (some (.letter c)) .bare rest

theorem roleIn_operatorSign {c : Char} (h : c ∈ operatorSigns) :
    c ≠ '\\' ∧ roleIn .bare c = (.bare, .bare) := by
  simp only [operatorSigns, List.mem_cons, List.not_mem_nil, or_false] at h
  rcases h with rfl | rfl | rfl | rfl <;> decide

theorem signs_of_ofPair? {c d : Char} {op : Operator} (h : Operator.ofPair? c d = some op) :
    c ∈ operatorSigns ∧ d ∈ operatorSigns := by
  unfold Operator.ofPair? at h
  split at h <;> cases h <;> decide

theorem sign_of_ofChar? {c : Char} {op : Operator} (h : Operator.ofChar? c = some op) :
    c ∈ operatorSigns := by
  unfold Operator.ofChar? at h
  split at h <;> cases h <;> decide

/-- The next character makes an operator only if it is a sign of operators. -/
theorem bind_ofPair?_eq_none {next : Option Char} (h : ∀ d, next = some d → d ∉ operatorSigns)
    (c : Char) : next.bind (Operator.ofPair? c) = none := by
  cases next with
  | none => rfl
  | some d =>
    rw [Option.bind_some, Option.eq_none_iff_forall_ne_some]
    exact fun op hop => h d rfl (signs_of_ofPair? hop).2

theorem marks_cons (mode : Mode) {c : Char} (hc : c ≠ '\\') (rest : Text) :
    marks mode (c :: rest) = ⟨c, (roleIn mode c).2⟩ :: marks (roleIn mode c).1 rest := by
  rw [marks]
  · simp [hc]
  · simp [hc]

/-- A character that quotes is a quotation mark, and it opens or closes. -/
theorem quote_cases {mode mode' : Mode} {c : Char} (h : roleIn mode c = (mode', .quote)) :
    c = '\'' ∧ (mode = .bare ∧ mode' = .single ∨ mode = .single ∧ mode' = .bare) ∨
      c = '"' ∧ (mode = .bare ∧ mode' = .double ∨ mode = .double ∧ mode' = .bare) := by
  cases mode <;> simp only [roleIn] at h <;> split_ifs at h <;> simp_all

/-- What is quoted is not the mark that would close the quotation. -/
theorem quoted_cases {mode : Mode} {c : Char} (h : roleIn mode c = (mode, .quoted)) :
    mode = .single ∧ c ≠ '\'' ∨ mode = .double ∧ c ≠ '"' := by
  cases mode <;> simp only [roleIn] at h <;> split_ifs at h <;> simp_all

theorem bare_cases {c : Char} (h : roleIn .bare c = (.bare, .bare)) :
    c ≠ '\'' ∧ c ≠ '"' ∧ Text.isBlank c = false := by
  simp only [roleIn] at h
  split_ifs at h <;> simp_all

/-- A blank quotes nothing. -/
theorem blank_ne {c : Char} (h : Text.isBlank c = true) : c ≠ '\'' ∧ c ≠ '"' ∧ c ≠ '\\' := by
  have hquote := blank_not_quotingSign h
  simpa only [quotingSigns, List.mem_cons, List.not_mem_nil, or_false, not_or] using hquote

theorem roleIn_blank {c : Char} (h : Text.isBlank c = true) :
    c ≠ '\\' ∧ roleIn .bare c = (.bare, .blank) := by
  obtain ⟨hs, hd, hc⟩ := blank_ne h
  exact ⟨hc, by simp [roleIn, hs, hd, h]⟩

theorem roleIn_blank_quoted {mode : Mode} (hmode : mode ≠ .bare) {c : Char}
    (h : Text.isBlank c = true) : c ≠ '\\' ∧ roleIn mode c = (mode, .quoted) := by
  obtain ⟨hs, hd, hc⟩ := blank_ne h
  refine ⟨hc, ?_⟩
  cases mode with
  | bare => exact absurd rfl hmode
  | single => simp [roleIn, hs]
  | double => simp [roleIn, hd]

/-- Every line but the empty one can be read on. -/
theorem exists_step (mode : Mode) {line : Text} (h : line ≠ []) :
    ∃ ms lexeme mode' rest, Step mode line ms lexeme mode' rest := by
  obtain ⟨c, rest, rfl⟩ := List.exists_cons_of_ne_nil h
  by_cases hc : c = '\\'
  · subst hc
    cases rest with
    | nil => exact ⟨_, _, _, _, .dangling⟩
    | cons d rest => exact ⟨_, _, _, _, .escape⟩
  cases mode with
  | single =>
    by_cases hq : c = '\''
    · have hcloses : roleIn .single c = (.bare, .quote) := by simp [roleIn, hq]
      exact ⟨_, _, _, _, .quote hcloses⟩
    · exact ⟨_, _, _, _, .quoted hc (by simp [roleIn, hq])⟩
  | double =>
    by_cases hq : c = '"'
    · have hcloses : roleIn .double c = (.bare, .quote) := by simp [roleIn, hq]
      exact ⟨_, _, _, _, .quote hcloses⟩
    · exact ⟨_, _, _, _, .quoted hc (by simp [roleIn, hq])⟩
  | bare =>
    cases hnext : rest.head?.bind (Operator.ofPair? c) with
    | some op =>
      obtain ⟨d, hd, hop⟩ := Option.bind_eq_some_iff.mp hnext
      obtain ⟨rest, rfl⟩ : ∃ tail, rest = d :: tail := by
        cases rest with
        | nil => cases hd
        | cons e tail => exact ⟨tail, by simpa using hd⟩
      exact ⟨_, _, _, _, .pair hop⟩
    | none =>
      cases hop : Operator.ofChar? c with
      | some op => exact ⟨_, _, _, _, .lone hop hnext⟩
      | none =>
        by_cases hs : c = '\''
        · have hopens : roleIn .bare c = (.single, .quote) := by simp [roleIn, hs]
          exact ⟨_, _, _, _, .quote hopens⟩
        by_cases hd : c = '"'
        · have hopens : roleIn .bare c = (.double, .quote) := by simp [roleIn, hd]
          exact ⟨_, _, _, _, .quote hopens⟩
        by_cases hb : Text.isBlank c = true
        · exact ⟨_, _, _, _, .blank hb⟩
        · exact ⟨_, _, _, _, .letter hc (by simp [roleIn, hs, hd, hb]) hop hnext⟩

namespace Step

variable {mode mode' : Mode} {line rest : Text} {ms : List Mark} {lexeme : Option Lexeme}

/-- A step is an escape, or it is what the character and the next one tell. -/
theorem front {c : Char} (h : Step mode (c :: line) ms lexeme mode' rest) :
    (c = '\\' ∧ line = [] ∧ lexeme = none ∧ mode' = mode ∧ rest = []) ∨
      (c = '\\' ∧ ∃ d, line = d :: rest ∧ lexeme = some (.letter d) ∧ mode' = mode) ∨
      (c ≠ '\\' ∧ Line.classify mode c line.head? = (mode', lexeme, decide (ms.length = 2)) ∧
        rest = if ms.length = 2 then line.tail else line) := by
  cases h with
  | dangling => exact .inl ⟨rfl, rfl, rfl, rfl, rfl⟩
  | escape => exact .inr (.inl ⟨rfl, _, rfl, rfl, rfl⟩)
  | quote h =>
    refine .inr (.inr ?_)
    rcases quote_cases h with ⟨rfl, ⟨rfl, rfl⟩ | ⟨rfl, rfl⟩⟩ | ⟨rfl, ⟨rfl, rfl⟩ | ⟨rfl, rfl⟩⟩
    · exact ⟨by decide, by rw [classify_bare (by decide)]; rfl, rfl⟩
    · exact ⟨by decide, rfl, rfl⟩
    · exact ⟨by decide, by rw [classify_bare (by decide)]; rfl, rfl⟩
    · exact ⟨by decide, rfl, rfl⟩
  | quoted hc h =>
    refine .inr (.inr ⟨hc, ?_, rfl⟩)
    rcases quoted_cases h with ⟨rfl, hq⟩ | ⟨rfl, hq⟩
    · simp [Line.classify, hq]
    · simp [Line.classify, hq]
  | blank h =>
    obtain ⟨hs, hd, hc⟩ := blank_ne h
    refine .inr (.inr ⟨hc, ?_, rfl⟩)
    rw [classify_bare (blank_not_operatorSign h)]
    simp [hs, hd, h]
  | pair h =>
    have hc := (roleIn_operatorSign (signs_of_ofPair? h).1).1
    exact .inr (.inr ⟨hc, by simp [Line.classify, h], rfl⟩)
  | lone h hnext =>
    have hc := (roleIn_operatorSign (sign_of_ofChar? h)).1
    exact .inr (.inr ⟨hc, by simp [Line.classify, hnext, h], rfl⟩)
  | letter hc h hop hnext =>
    obtain ⟨hs, hd, hb⟩ := bare_cases h
    exact .inr (.inr ⟨hc, by simp [Line.classify, hnext, hop, hs, hd, hb], rfl⟩)

theorem lexemes (h : Step mode line ms lexeme mode' rest) :
    Line.lexemes mode line = lexeme.toList ++ Line.lexemes mode' rest := by
  cases line with
  | nil => cases h
  | cons c line =>
    rcases h.front with ⟨rfl, rfl, rfl, rfl, rfl⟩ | ⟨rfl, d, rfl, rfl, rfl⟩ | ⟨hc, hnext, hrest⟩
    · simp [Line.lexemes]
    · exact lexemes_escape ..
    · rw [lexemes_cons mode hc, hnext, hrest]
      simp

theorem marks (h : Step mode line ms lexeme mode' rest) :
    Line.marks mode line = ms ++ Line.marks mode' rest := by
  cases h with
  | dangling => simp [Line.marks]
  | escape => simp [Line.marks]
  | @quote _ _ c _ h =>
    have hc : c ≠ '\\' := by rcases quote_cases h with ⟨rfl, -⟩ | ⟨rfl, -⟩ <;> decide
    rw [marks_cons _ hc, h]; rfl
  | quoted hc h => rw [marks_cons _ hc, h]; rfl
  | blank h => rw [marks_cons _ (roleIn_blank h).1, (roleIn_blank h).2]; rfl
  | pair h =>
    obtain ⟨hc, hd⟩ := signs_of_ofPair? h
    rw [marks_cons _ (roleIn_operatorSign hc).1, (roleIn_operatorSign hc).2,
      marks_cons _ (roleIn_operatorSign hd).1, (roleIn_operatorSign hd).2]
    rfl
  | lone h hnext =>
    have hc := roleIn_operatorSign (sign_of_ofChar? h)
    rw [marks_cons _ hc.1, hc.2]; rfl
  | letter hc h hop hnext => rw [marks_cons _ hc, h]; rfl

theorem length_lt (h : Step mode line ms lexeme mode' rest) : rest.length < line.length := by
  cases h <;> simp only [List.length_cons, List.length_nil] <;> omega

end Step

/-- What is kept by each step holds of every line. -/
@[elab_as_elim]
theorem step_induction {P : Mode → Text → Prop} (nil : ∀ mode, P mode [])
    (step : ∀ {mode line ms lexeme mode' rest}, Step mode line ms lexeme mode' rest →
      P mode' rest → P mode line) (mode : Mode) (line : Text) : P mode line := by
  induction hn : line.length using Nat.strongRecOn generalizing mode line with
  | ind n ih =>
    by_cases hline : line = []
    · exact hline ▸ nil mode
    · obtain ⟨ms, lexeme, mode', rest, h⟩ := exists_step mode hline
      exact step h (ih rest.length (hn ▸ h.length_lt) mode' rest rfl)

/-- Every character of the line has its mark. -/
theorem map_char_marks (mode : Mode) (line : Text) : (marks mode line).map Mark.char = line := by
  induction mode, line using step_induction with
  | nil mode => rfl
  | step h ih =>
    rw [h.marks, List.map_append, ih]
    cases h <;> rfl

theorem length_marks (mode : Mode) (line : Text) : (marks mode line).length = line.length := by
  rw [← List.length_map Mark.char, map_char_marks]

/-- The operator at a character is what the tokens are cut by, whatever stands behind it. -/
theorem operatorAt_marks (c : Char) (rest : Text) :
    operatorAt (⟨c, .bare⟩ :: marks .bare rest) =
      (rest.head?.bind (Operator.ofPair? c)).or (Operator.ofChar? c) := by
  cases rest with
  | nil => simp [marks, operatorAt]
  | cons d rest =>
    rw [List.head?_cons, Option.bind_some]
    by_cases hd : d ∈ operatorSigns
    · rw [marks_cons _ (roleIn_operatorSign hd).1, (roleIn_operatorSign hd).2]
      rfl
    · have hnext : ∀ e, some d = some e → e ∉ operatorSigns := by
        rintro _ ⟨⟩
        exact hd
      have hpair : Operator.ofPair? c d = none := bind_ofPair?_eq_none hnext c
      rw [hpair, Option.none_or]
      by_cases hs : d = '\\'
      · subst hs
        cases rest <;> simp [marks, operatorAt]
      · rw [marks_cons _ hs]
        cases hrole : (roleIn .bare d).2 <;> simp [operatorAt, hpair]

end Line

end LineShell

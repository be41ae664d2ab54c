import LineShell.Proofs.Line.Mark
import Mathlib.Data.List.Induction

/-! A line in two parts. The second part is read in the mode that the first one leaves behind, as
long as no operator stands across the two. -/

namespace LineShell.Line

/-- No operator stands across the two parts. -/
def Apart (a b : Text) : Prop :=
  ∀ c d, a.getLast? = some c → b.head? = some d → Operator.ofPair? c d = none

/-- The lexemes of a text behind one that leaves a mode, and perhaps an escape, behind. -/
def lexemesFrom : Mode × Bool → Text → List Lexeme
  | (mode, false), t => lexemes mode t
  | (_, true), [] => []
  | (mode, true), c :: rest => .letter c :: lexemes mode rest

/-- The marks of a text behind one that leaves a mode, and perhaps an escape, behind. -/
def marksFrom : Mode × Bool → Text → List Mark
  | (mode, false), t => marks mode t
  | (_, true), [] => []
  | (mode, true), c :: rest => ⟨c, .escaped⟩ :: marks mode rest

theorem Apart.of_head {b : Text} (h : ∀ d, b.head? = some d → d ∉ operatorSigns) (a : Text) :
    Apart a b :=
  fun c d _ hd => by
    rw [Option.eq_none_iff_forall_ne_some]
    exact fun op hop => h d hd (signs_of_ofPair? hop).2

theorem Apart.tail {c : Char} {a b : Text} (h : Apart (c :: a) b) : Apart a b := by
  intro e d he hd
  cases a with
  | nil => cases he
  | cons x a => exact h e d (by rwa [List.getLast?_cons_cons]) hd

/-- The character behind the first one makes no operator with it in the longer text either. -/
theorem Apart.next {c : Char} {a b : Text} (h : Apart (c :: a) b)
    (hnext : a.head?.bind (Operator.ofPair? c) = none) :
    (a ++ b).head?.bind (Operator.ofPair? c) = none := by
  cases a with
  | cons x a => exact hnext
  | nil =>
    cases hb : b.head? with
    | none => rw [List.nil_append, hb]; rfl
    | some d =>
      rw [List.nil_append, hb]
      exact h c d rfl hb

theorem modeAfter_cons (mode : Mode) {c : Char} (hc : c ≠ '\\') (rest : Text) :
    modeAfter mode (c :: rest) =
      modeAfter (classify mode c rest.head?).1
        (if (classify mode c rest.head?).2.2 then rest.tail else rest) := by
  cases rest with
  | nil => cases h : (classify mode c none).2.2 <;> simp [modeAfter, h]
  | cons d rest =>
    rw [modeAfter]
    · simp only [List.head?_cons, List.tail_cons]
      split <;> simp_all
    all_goals simp_all

namespace Step

variable {mode mode' : Mode} {line rest : Text} {ms : List Mark} {lexeme : Option Lexeme}

/-- A text leaves behind what its rest does, unless a lone backslash ends it. -/
theorem modeAfter (h : Step mode line ms lexeme mode' rest) (hline : line ≠ ['\\']) :
    Line.modeAfter mode line = Line.modeAfter mode' rest := by
  cases line with
  | nil => cases h
  | cons c line =>
    rcases h.front with ⟨rfl, rfl, -⟩ | ⟨rfl, d, rfl, rfl, rfl⟩ | ⟨hc, hnext, hrest⟩
    · exact absurd rfl hline
    · simp [Line.modeAfter]
    · rw [modeAfter_cons mode hc, hnext, hrest]
      simp

/-- A step is the same where more text follows, unless a lone backslash is all there is. -/
theorem append {b : Text} (h : Step mode line ms lexeme mode' rest) (hline : line ≠ ['\\'])
    (hapart : Apart line b) : Step mode (line ++ b) ms lexeme mode' (rest ++ b) := by
  cases h with
  | dangling => exact absurd rfl hline
  | escape => exact .escape
  | quote h => exact .quote h
  | quoted hc h => exact .quoted hc h
  | blank h => exact .blank h
  | pair h => exact .pair h
  | lone h hnext => exact .lone h (hapart.next hnext)
  | letter hc h hop hnext => exact .letter hc h hop (hapart.next hnext)

theorem apart {b : Text} (h : Step mode line ms lexeme mode' rest) (hapart : Apart line b) :
    Apart rest b := by
  cases h with
  | dangling => exact hapart.tail
  | escape => exact hapart.tail.tail
  | pair h => exact hapart.tail.tail
  | _ => exact hapart.tail

end Step

/-- The lexemes and the marks of a line in two parts. -/
theorem read_append (mode : Mode) (a b : Text) (h : Apart a b) :
    lexemes mode (a ++ b) = lexemes mode a ++ lexemesFrom (modeAfter mode a) b ∧
      marks mode (a ++ b) = marks mode a ++ marksFrom (modeAfter mode a) b := by
  induction mode, a using step_induction with
  | nil mode => simp [lexemes, marks, modeAfter, lexemesFrom, marksFrom]
  | @step mode a ms lexeme mode' rest hstep ih =>
    by_cases hline : a = ['\\']
    · subst hline
      cases b <;> simp [lexemes, marks, modeAfter, lexemesFrom, marksFrom]
    · obtain ⟨hlexemes, hmarks⟩ := ih (hstep.apart h)
      have hlong := hstep.append hline h
      rw [hstep.modeAfter hline, hlong.lexemes, hlong.marks, hlexemes, hmarks, hstep.lexemes,
        hstep.marks, List.append_assoc, List.append_assoc]
      exact ⟨rfl, rfl⟩

/-- A blank is a gap outside quotes, and a letter elsewhere. -/
theorem lexemesFrom_blank (left : Mode × Bool) {c : Char} (hc : Text.isBlank c = true) :
    ∃ part role,
      (part = .gap ∧ role = .blank ∧ left = (.bare, false) ∨ part = .letter c ∧ role ≠ .blank) ∧
      ∀ r, lexemesFrom left (c :: r) = part :: lexemes left.1 r ∧
        marksFrom left (c :: r) = ⟨c, role⟩ :: marks left.1 r := by
  obtain ⟨mode, escaped⟩ := left
  cases escaped with
  | true => exact ⟨.letter c, .escaped, .inr ⟨rfl, by decide⟩, fun r => ⟨rfl, rfl⟩⟩
  | false =>
    by_cases hmode : mode = .bare
    · subst hmode
      refine ⟨.gap, .blank, .inl ⟨rfl, rfl, rfl⟩, fun r => ?_⟩
      exact ⟨(Step.blank hc).lexemes, (Step.blank hc).marks⟩
    · obtain ⟨hs, hrole⟩ := roleIn_blank_quoted hmode hc
      refine ⟨.letter c, .quoted, .inr ⟨rfl, by decide⟩, fun r => ?_⟩
      exact ⟨(Step.quoted hs hrole).lexemes, (Step.quoted hs hrole).marks⟩

/-- A row of lexemes that ends in no letter. -/
def EndsWord (parts : List Lexeme) : Prop :=
  ∀ c, parts.getLast? ≠ some (.letter c)

/-- Lexemes are the letters that they end in, behind a row that ends in none. -/
theorem exists_letters (parts : List Lexeme) :
    ∃ (before : List Lexeme) (letters : Text),
      parts = before ++ letters.map .letter ∧ EndsWord before := by
  induction parts using List.reverseRecOn with
  | nil => exact ⟨[], [], rfl, by simp [EndsWord]⟩
  | append_singleton parts part ih =>
    cases part with
    | letter c =>
      obtain ⟨before, letters, rfl, hbefore⟩ := ih
      exact ⟨before, letters ++ [c], by simp, hbefore⟩
    | gap => exact ⟨parts ++ [.gap], [], by simp, by simp [EndsWord]⟩
    | operator op => exact ⟨parts ++ [.operator op], [], by simp, by simp [EndsWord]⟩

theorem close_append (letters : Text) (tokens more : List Token) :
    close letters (tokens ++ more) = close letters tokens ++ more := by
  cases letters <;> rfl

theorem grouped_append {before : List Lexeme} (hne : before ≠ []) (h : EndsWord before)
    (parts : List Lexeme) :
    grouped (before ++ parts) = ((grouped before).1, (grouped before).2 ++ group parts) := by
  induction before with
  | nil => exact absurd rfl hne
  | cons part before ih =>
    by_cases hbefore : before = []
    · subst hbefore
      cases part with
      | letter c => exact absurd rfl (h c)
      | gap => rfl
      | operator op => rfl
    · have htail : EndsWord before := fun c hc =>
        h c (by rw [List.getLast?_cons, hc]; rfl)
      have htokens := ih hbefore htail
      cases part with
      | letter c => rw [List.cons_append, grouped, htokens, grouped]
      | gap => simp only [List.cons_append, grouped, htokens, close_append]
      | operator op => simp only [List.cons_append, grouped, htokens, close_append]

/-- Lexemes that end in no letter make tokens of their own. -/
theorem group_append {before : List Lexeme} (h : EndsWord before) (parts : List Lexeme) :
    group (before ++ parts) = group before ++ group parts := by
  by_cases hne : before = []
  · subst hne; rfl
  · simp only [group.eq_1 (before ++ parts), group.eq_1 before, grouped_append hne h, close_append]

theorem group_map_letter (letters : Text) : group (letters.map .letter) = close letters [] := by
  have h := grouped_letters letters []
  rw [List.append_nil] at h
  rw [group, h, grouped, List.append_nil]

end LineShell.Line

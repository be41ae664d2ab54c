import LineShell.Proofs.Line.Ordinary
import LineShell.Proofs.Line.Trim
import LineShell.Proofs.Line.Verbatim
import LineShell.Proofs.Text.Words

/-! Lines in which nothing is quoted. Every character but a blank belongs to a token, and without a
sign of a redirection the words of the line are those of the text. -/

namespace LineShell.Line

/-- A line without quotation marks and without backslashes. -/
def Unquoted (line : Text) : Prop :=
  ∀ c ∈ line, c ∉ quotingSigns

instance (line : Text) : Decidable (Unquoted line) :=
  inferInstanceAs (Decidable (∀ c ∈ line, c ∉ quotingSigns))

/-- What an unquoted character is where no operator begins with it. -/
def plainLexeme (c : Char) : Lexeme :=
  if Text.isBlank c then .gap else .letter c

section Unquoted

variable {c : Char} {line : Text}

theorem roleIn_unquoted (h : c ∉ quotingSigns) :
    c ≠ '\\' ∧ roleIn .bare c = (.bare, if Text.isBlank c then .blank else .bare) := by
  simp only [quotingSigns, List.mem_cons, List.not_mem_nil, or_false, not_or] at h
  refine ⟨h.2.2, ?_⟩
  rw [roleIn, if_neg h.1, if_neg h.2.1]
  split <;> rfl

/-- Of a line without quotes and escapes nothing but blanks is lost. -/
theorem keptText_unquoted (h : Unquoted line) :
    keptText (marks .bare line) = line.filter (!Text.isBlank ·) := by
  induction line with
  | nil => rfl
  | cons c line ih =>
    obtain ⟨hc, hline⟩ := List.forall_mem_cons.mp h
    obtain ⟨hescape, hrole⟩ := roleIn_unquoted hc
    rw [marks_cons .bare hescape, hrole, List.filter_cons, ← ih hline]
    cases Text.isBlank c <;> rfl

theorem lexemes_unquoted (h : Unquoted line) (hsign : ∀ c ∈ line, c ≠ '<' ∧ c ≠ '>') :
    lexemes .bare line = line.map plainLexeme := by
  induction line with
  | nil => simp [lexemes]
  | cons c line ih =>
    have hordinary : ∀ d ∈ c :: line, IsOrdinary d :=
      fun d hd => ⟨(roleIn_unquoted (h d hd)).1, hsign d hd⟩
    rw [List.forall_mem_cons] at hsign
    obtain ⟨hc, hline⟩ := List.forall_mem_cons.mp h
    rw [lexemes_ordinary .bare hordinary, lexemeIn, (roleIn_unquoted hc).2, ih hline hsign.2,
      List.map_cons, plainLexeme]
    cases Text.isBlank c <;> rfl

/-- The words of a text, as tokens. -/
theorem grouped_plain {first : Text} {rest : List Text}
    (h : line.splitOnP Text.isBlank = first :: rest) :
    grouped (line.map plainLexeme) = (first, (rest.filter (!·.isEmpty)).map .word) := by
  induction line generalizing first rest with
  | nil =>
    cases h
    rfl
  | cons c line ih =>
    obtain ⟨front, more, hsplit⟩ :=
      List.exists_cons_of_ne_nil (List.splitOnP_ne_nil Text.isBlank line)
    rw [List.splitOnP_cons_eq_if_modifyHead, hsplit] at h
    rw [List.map_cons, plainLexeme]
    split at h
    case isTrue hblank =>
      cases h
      rw [if_pos hblank, grouped, ih hsplit, List.filter_cons]
      cases front <;> rfl
    case isFalse hblank =>
      cases h
      rw [if_neg hblank, grouped, ih hsplit]

/-- Without quotes and redirections a line is cut at its blanks and nowhere else. -/
theorem tokenize_unquoted (h : Unquoted line) (hsign : ∀ c ∈ line, c ≠ '<' ∧ c ≠ '>') :
    tokenize line = (Text.words line).map .word := by
  obtain ⟨first, rest, hsplit⟩ :=
    List.exists_cons_of_ne_nil (List.splitOnP_ne_nil Text.isBlank line)
  rw [tokenize, lexemes_unquoted h hsign, group, grouped_plain hsplit, Text.words, hsplit, close,
    List.filter_cons]
  cases first <;> rfl

/-- A line that is parsed without a redirection has no tokens but words. -/
theorem parse_eq_plain_iff {i : Invocation} :
    parse line = .ok (i, {}) ↔ tokenize line = (i.name :: i.arguments).map .word := by
  constructor
  · intro h
    obtain ⟨redirected, horder, hr⟩ := resolve_eq_ok_iff.mp (resolve_of_parse h)
    generalize tokenize line = tokens at horder ⊢
    generalize i.name :: i.arguments = words at horder ⊢
    cases horder with
    | plain => rfl
    | redirected => cases hr
  · intro h
    rw [parse_of_resolve (h ▸ resolve_words _)]
    rfl

end Unquoted

end LineShell.Line

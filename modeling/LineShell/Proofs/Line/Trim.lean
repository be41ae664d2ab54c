import LineShell.Proofs.Line.Append
import LineShell.Proofs.Line.Offence
import LineShell.Proofs.Text.Trim

/-! A line, and the same line without the blanks at its ends. The blanks in front never count.
Those at the end do where an escape or an open quote makes them part of a word. -/

namespace LineShell.Line

/-- Every blank at the end of a line stands outside quotes and behind no escape. -/
def EndsInGap (line : Text) : Prop :=
  ∀ m ∈ (marks .bare line).drop (Text.trimEnd line).length, m.role = .blank

theorem Apart.of_blanks {gap : Text} (h : ∀ c ∈ gap, Text.isBlank c = true) (a : Text) :
    Apart a gap :=
  .of_head (fun d hd => blank_not_operatorSign (h d (List.mem_of_head? hd))) a

theorem lexemes_blanks {gap : Text} (h : ∀ c ∈ gap, Text.isBlank c = true) :
    lexemes .bare gap = List.replicate gap.length .gap ∧
      ∀ m ∈ marks .bare gap, m.role = .blank := by
  induction gap with
  | nil => simp [lexemes, marks]
  | cons c gap ih =>
    obtain ⟨hlexemes, hmarks⟩ := ih fun d hd => h d (List.mem_cons_of_mem _ hd)
    have hstep : Step .bare (c :: gap) _ _ .bare gap := .blank (h c List.mem_cons_self)
    rw [hstep.lexemes, hstep.marks, hlexemes]
    refine ⟨rfl, fun m hm => ?_⟩
    rcases List.mem_append.mp hm with hm | hm
    · rw [List.mem_singleton.mp hm]
    · exact hmarks m hm

/-- Inside quotes blanks are letters. -/
theorem lexemes_quoted_blanks {mode : Mode} (hmode : mode ≠ .bare) {gap : Text}
    (h : ∀ c ∈ gap, Text.isBlank c = true) : lexemes mode gap = gap.map .letter := by
  induction gap with
  | nil => simp [lexemes]
  | cons c gap ih =>
    obtain ⟨hc, hrole⟩ := roleIn_blank_quoted hmode (h c List.mem_cons_self)
    have hstep : Step mode (c :: gap) _ _ mode gap := .quoted hc hrole
    rw [hstep.lexemes, ih fun d hd => h d (List.mem_cons_of_mem _ hd)]
    rfl

/-- Blanks behind an escape or in an open quote give letters to a word. -/
theorem lexemesFrom_blanks {left : Mode × Bool} (hleft : left ≠ (.bare, false)) {gap : Text}
    (hne : gap ≠ []) (h : ∀ c ∈ gap, Text.isBlank c = true) :
    (∃ (letters : Text) (n : Nat), letters ≠ [] ∧
      lexemesFrom left gap = letters.map .letter ++ List.replicate n .gap) ∧
    ∃ m ∈ marksFrom left gap, m.role ≠ .blank := by
  obtain ⟨c, gap, rfl⟩ := List.exists_cons_of_ne_nil hne
  have hgap : ∀ d ∈ gap, Text.isBlank d = true := fun d hd => h d (List.mem_cons_of_mem _ hd)
  obtain ⟨part, role, hpart, hread⟩ := lexemesFrom_blank left (h c List.mem_cons_self)
  obtain ⟨rfl, hrole⟩ := hpart.resolve_left fun hgap => hleft hgap.2.2
  rw [(hread gap).1, (hread gap).2]
  refine ⟨?_, ⟨c, role⟩, List.mem_cons_self, hrole⟩
  by_cases hmode : left.1 = .bare
  · exact ⟨[c], gap.length, by simp, by rw [hmode, (lexemes_blanks hgap).1]; rfl⟩
  · exact ⟨c :: gap, 0, by simp, by rw [lexemes_quoted_blanks hmode hgap]; simp⟩

theorem grouped_congr {parts parts' : List Lexeme} (h : grouped parts = grouped parts')
    (before : List Lexeme) : grouped (before ++ parts) = grouped (before ++ parts') := by
  induction before with
  | nil => exact h
  | cons part before ih => cases part <;> simp only [List.cons_append, grouped, ih]

/-- Gaps at the end make no token. -/
theorem group_gaps (before : List Lexeme) (n : Nat) :
    group (before ++ List.replicate n .gap) = group before := by
  have hgaps : grouped (List.replicate n .gap) = grouped [] := by
    induction n with
    | zero => rfl
    | succ n ih => simp only [List.replicate_succ, grouped, ih, close, List.isEmpty_nil, if_true]
  rw [group, grouped_congr hgaps before, List.append_nil, group]

/-- Without the blanks at its end a line has the same tokens, or its last word is shorter. -/
theorem tokenize_trimEnd (line : Text) :
    (EndsInGap line ∧ tokenize (Text.trimEnd line) = tokenize line) ∨
      (¬ EndsInGap line ∧ ∃ before word more, more ≠ [] ∧
        tokenize (Text.trimEnd line) = before ++ close word [] ∧
        tokenize line = before ++ [.word (word ++ more)]) := by
  obtain ⟨gap, hline, hgap⟩ := Text.exists_trimEnd line
  obtain ⟨hlexemes, hmarks⟩ := read_append .bare (Text.trimEnd line) gap (.of_blanks hgap _)
  rw [← hline] at hlexemes hmarks
  have hends : EndsInGap line ↔
      ∀ m ∈ marksFrom (modeAfter .bare (Text.trimEnd line)) gap, m.role = .blank := by
    rw [EndsInGap, hmarks, ← length_marks .bare (Text.trimEnd line), List.drop_left]
  generalize modeAfter .bare (Text.trimEnd line) = left at hlexemes hends
  by_cases hne : gap = []
  · subst hne
    rw [List.append_nil] at hline
    refine .inl ⟨hends.mpr ?_, by rw [← hline]⟩
    obtain ⟨mode, escaped⟩ := left
    cases escaped <;> simp [marksFrom, marks]
  by_cases hleft : left = (.bare, false)
  · subst hleft
    refine .inl ⟨hends.mpr (lexemes_blanks hgap).2, ?_⟩
    rw [tokenize, tokenize, hlexemes, lexemesFrom, (lexemes_blanks hgap).1, group_gaps]
  · obtain ⟨⟨more, n, hmore, hfrom⟩, m, hm, hrole⟩ := lexemesFrom_blanks hleft hne hgap
    refine .inr ⟨fun h => hrole (hends.mp h m hm), ?_⟩
    obtain ⟨before, word, hbefore, hends⟩ := exists_letters (lexemes .bare (Text.trimEnd line))
    refine ⟨group before, word, more, hmore, ?_, ?_⟩
    · rw [tokenize, hbefore, group_append hends, group_map_letter]
    · rw [tokenize, hlexemes, hfrom, ← List.append_assoc, group_gaps, hbefore, List.append_assoc,
        ← List.map_append, group_append hends, group_word _ (by simp [hmore])]

/-- The blanks in front of a line make no token. -/
theorem tokenize_dropWhile (line : Text) :
    tokenize (line.dropWhile Text.isBlank) = tokenize line := by
  conv_rhs => rw [← List.takeWhile_append_dropWhile (p := Text.isBlank) (l := line)]
  exact (group_lexemes_blanks _ (fun c hc => List.all_eq_true.mp List.all_takeWhile c hc) _).symm

theorem tokenize_trim (line : Text) : tokenize (Text.trim line) = tokenize (Text.trimEnd line) := by
  rw [Text.trim_eq_dropWhile, tokenize_dropWhile]

/-- The letters of a word; an operator has none. -/
def wordText : Token → Text
  | .word w => w
  | .operator _ => []

theorem wordText_words (words : List Text) :
    (words.map Token.word).flatMap wordText = words.flatten := by
  rw [List.flatMap_map, List.flatten_eq_flatMap]
  rfl

/-- The letters of accepted tokens are in the words and the target. -/
theorem length_wordText {tokens : List Token} {words : List Text} {r : Redirection}
    (h : resolve tokens = .ok (words, r)) :
    (tokens.flatMap wordText).length = words.flatten.length + (r.output.getD []).length := by
  obtain ⟨redirected, horder, rfl⟩ := resolve_eq_ok_iff.mp h
  cases horder with
  | plain words => rw [wordText_words]; rfl
  | redirected before after hop target =>
    rw [List.flatMap_append, List.flatMap_cons, List.flatMap_cons, wordText_words, wordText_words]
    simp only [wordText, redirectionTo, Option.getD_some, List.length_append, List.flatten_append,
      List.length_nil]
    omega

theorem resolve_of_parse {line : Text} {i : Invocation} {r : Redirection}
    (h : parse line = .ok (i, r)) : resolve (tokenize line) = .ok (i.name :: i.arguments, r) := by
  rw [parse] at h
  cases hresolve : resolve (tokenize line) with
  | error e => rw [hresolve] at h; cases h
  | ok answer =>
    obtain ⟨words, r'⟩ := answer
    rw [hresolve] at h
    cases words with
    | nil => cases h
    | cons name arguments =>
      cases h
      rfl

theorem parse_of_resolve_error {line : Text} {e : LineError}
    (h : resolve (tokenize line) = .error e) : parse line = .error e := by
  rw [parse, h]
  rfl

theorem parse_of_resolve {line : Text} {words : List Text} {r : Redirection}
    (h : resolve (tokenize line) = .ok (words, r)) :
    parse line = (Invocation.ofWords words).map (·, r) := by
  rw [parse, h]
  cases words <;> rfl

/-- A line that is refused is still refused for the same where its last word is shorter, unless the
word is gone and was the target of an output operator. -/
theorem parse_eq_of_shorter {line line' : Text} {tokens : List Token} {word longer : Text}
    (hline : tokenize line = tokens ++ [.word longer])
    (hline' : tokenize line' = tokens ++ close word []) {e : LineError}
    (herror : parse line = .error e)
    (hmissing : ∀ op, parse line' = .error (.missingTarget op) →
      parse line = .error (.missingTarget op)) :
    parse line' = parse line := by
  obtain ⟨words, redirected, horder⟩ | ⟨e', hrefused⟩ |
      ⟨before, op, words, redirected, rfl, hop, horder⟩ :=
    inOrder_or_refused_or_untargeted tokens
  · -- a further word is an argument, or the name of the command
    have hok := parse_of_resolve (hline ▸ resolve_inOrder (horder.concat longer))
    obtain ⟨i, hi⟩ : ∃ i, Invocation.ofWords (words ++ [longer]) = .ok i := by
      cases words <;> exact ⟨_, rfl⟩
    rw [hi, herror] at hok
    cases hok
  · -- the last word comes too late to count
    have hlong := parse_of_resolve_error (hline ▸ resolve_refusedFor (hrefused _))
    have hshort := parse_of_resolve_error (hline' ▸ resolve_refusedFor (hrefused _))
    rw [hlong, hshort]
  · -- the last word is a target, if it is there
    rw [List.append_assoc, List.singleton_append] at hline hline'
    have hlong := resolve_targeted horder hop longer
    rw [← hline] at hlong
    cases word with
    | nil =>
      have hshort : resolve (tokenize line') = .error (.missingTarget op.text) :=
        hline' ▸ resolve_refusedFor ⟨_, _, _, _, rfl, horder, .untargeted hop [] (by simp)⟩
      have hshort := parse_of_resolve_error hshort
      rw [hshort, hmissing _ hshort]
    | cons c word =>
      have hshort : resolve (tokenize line') = _ := hline' ▸ resolve_targeted horder hop (c :: word)
      cases redirected with
      | some first =>
        rw [parse_of_resolve_error hlong, parse_of_resolve_error hshort]
      | none =>
        have hlong := parse_of_resolve hlong
        have hshort := parse_of_resolve hshort
        rw [herror] at hlong
        cases words with
        | nil => rw [herror, hlong, hshort]; rfl
        | cons name arguments => cases hlong

/-- A line that is accepted is another command, or has another target, where its last word is
shorter. -/
theorem parse_ne_of_shorter {line line' : Text} {tokens : List Token} {word more : Text}
    (hmore : more ≠ []) (hline : tokenize line = tokens ++ [.word (word ++ more)])
    (hline' : tokenize line' = tokens ++ close word []) {i : Invocation} {r : Redirection}
    (hparse : parse line = .ok (i, r)) : parse line' ≠ parse line := by
  intro h
  have hlong := length_wordText (resolve_of_parse hparse)
  have hshort := length_wordText (resolve_of_parse (h.trans hparse))
  have hword : (close word []).flatMap wordText = word := by
    cases word <;> simp [close, wordText]
  have hlonger : [Token.word (word ++ more)].flatMap wordText = word ++ more := by
    simp [wordText]
  rw [hline, List.flatMap_append, hlonger, List.length_append, List.length_append] at hlong
  rw [hline', List.flatMap_append, hword, List.length_append] at hshort
  have hpos := List.length_pos_iff.mpr hmore
  omega

/-- A line without the blanks at its ends comes to the same, command or refusal, exactly when none
of the blanks at the end belongs to a word, or the line is refused and loses no target of an output
operator with them. -/
theorem parse_trim_iff (line : Text) :
    parse (Text.trim line) = parse line ↔
      EndsInGap line ∨ (∃ e, parse line = .error e) ∧
        ∀ op, parse (Text.trim line) = .error (.missingTarget op) →
          parse line = .error (.missingTarget op) := by
  obtain ⟨hends, htokens⟩ | ⟨hends, tokens, word, more, hmore, hshort, hlong⟩ :=
    tokenize_trimEnd line
  · refine iff_of_true ?_ (.inl hends)
    rw [parse, tokenize_trim, htokens, parse]
  · rw [← tokenize_trim] at hshort
    constructor
    · intro h
      refine .inr ⟨?_, fun op hop => h ▸ hop⟩
      cases hparse : parse line with
      | error e => exact ⟨e, rfl⟩
      | ok answer => exact absurd h (parse_ne_of_shorter hmore hlong hshort hparse)
    · rintro (h | ⟨⟨e, herror⟩, hmissing⟩)
      · exact absurd h hends
      · exact parse_eq_of_shorter hlong hshort herror hmissing

/-- The blank behind a backslash is lost with the blanks at the end, and so is the word it makes. -/
theorem parse_trim_escaped :
    parse (Text.trim "echo a\\ ") = .ok ({ name := "echo".toList, arguments := ["a".toList] }, {}) ∧
      parse "echo a\\ " = .ok ({ name := "echo".toList, arguments := ["a ".toList] }, {}) := by
  decide

end LineShell.Line

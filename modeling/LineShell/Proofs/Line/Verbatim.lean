import LineShell.Proofs.Line.Append
import LineShell.Proofs.Line.Conservation
import LineShell.Proofs.Line.Offence

/-! Texts behind a line that are read as one more word, letter by letter. Of a text between quotes
the quotes are all that may be lost, so that what it holds can be told from how much is left. -/

namespace LineShell.Line

/-- The characters that are part of a word in a mode, unless an operator begins with them. -/
def IsKeptIn (mode : Mode) (c : Char) : Prop :=
  c ≠ '\\' ∧ (roleIn mode c).2.kept = true

instance (mode : Mode) (c : Char) : Decidable (IsKeptIn mode c) :=
  inferInstanceAs (Decidable (c ≠ '\\' ∧ (roleIn mode c).2.kept = true))

/-- The characters that are letters in a mode, whatever follows. -/
def IsLetterIn (mode : Mode) (c : Char) : Prop :=
  IsKeptIn mode c ∧ (mode = .bare → c ≠ '<' ∧ c ≠ '>')

/-- What is kept of the text, and that all of it is letters. -/
structure GivesLetters (mode : Mode) (t letters : Text) : Prop where
  kept : keptText (marks mode t) = letters
  noOperator : ∀ op, .operator op ∉ lexemes mode t

theorem isKeptIn_bare {c : Char} :
    IsKeptIn .bare c ↔ Text.isBlank c = false ∧ c ∉ quotingSigns := by
  simp only [IsKeptIn, roleIn, quotingSigns, List.mem_cons, List.not_mem_nil, or_false, not_or]
  split_ifs <;> simp_all [Role.kept]

theorem isKeptIn_single {c : Char} : IsKeptIn .single c ↔ c ≠ '\'' ∧ c ≠ '\\' := by
  simp only [IsKeptIn, roleIn]
  split_ifs <;> simp_all [Role.kept]

theorem isKeptIn_double {c : Char} : IsKeptIn .double c ↔ c ≠ '"' ∧ c ≠ '\\' := by
  simp only [IsKeptIn, roleIn]
  split_ifs <;> simp_all [Role.kept]

/-- A step takes as many characters as it has marks. -/
theorem Step.length {mode mode' : Mode} {line rest : Text} {ms : List Mark}
    {lexeme : Option Lexeme} (h : Step mode line ms lexeme mode' rest) :
    line.length = ms.length + rest.length := by
  cases h <;> simp only [List.length_cons, List.length_nil] <;> omega

theorem length_keptText_le (ms : List Mark) : (keptText ms).length ≤ ms.length := by
  rw [keptText, List.length_map]
  exact List.length_filter_le _ _

/-- A character that a mode keeps leaves the mode as it is. -/
theorem IsKeptIn.roleIn_eq {mode : Mode} {c : Char} (h : IsKeptIn mode c) :
    roleIn mode c = (mode, if mode = .bare then .bare else .quoted) := by
  obtain ⟨-, hkept⟩ := h
  cases mode <;> simp only [roleIn] at hkept ⊢ <;> split_ifs at hkept ⊢ <;> simp_all [Role.kept]

/-- No operator but those of a sign of a file begins without one, and then it ends in one. -/
theorem eq_of_ofPair? {c d : Char} {op : Operator} (hc : c ≠ '<' ∧ c ≠ '>')
    (h : Operator.ofPair? c d = some op) : d = '>' := by
  unfold Operator.ofPair? at h
  split at h <;> simp_all

/-- Letters of a mode are read one by one. -/
theorem lexemes_letters {mode : Mode} {t : Text} (h : ∀ c ∈ t, IsLetterIn mode c) :
    lexemes mode t = t.map .letter := by
  induction t with
  | nil => simp [lexemes]
  | cons c t ih =>
    obtain ⟨hkept, hsign⟩ := h c List.mem_cons_self
    have hrest : ∀ d ∈ t, IsLetterIn mode d := fun d hd => h d (List.mem_cons_of_mem _ hd)
    have hrole := hkept.roleIn_eq
    have hstep : ∃ ms, Step mode (c :: t) ms (some (.letter c)) mode t := by
      by_cases hmode : mode = .bare
      · subst hmode
        have hop : Operator.ofChar? c = none := by
          rw [Option.eq_none_iff_forall_ne_some]
          intro op hop
          unfold Operator.ofChar? at hop
          split at hop <;> simp_all
        have hnext : t.head?.bind (Operator.ofPair? c) = none := by
          rw [Option.eq_none_iff_forall_ne_some]
          intro op hop
          obtain ⟨d, hd, hop⟩ := Option.bind_eq_some_iff.mp hop
          exact ((hrest d (List.mem_of_head? hd)).2 rfl).2 (eq_of_ofPair? (hsign rfl) hop)
        exact ⟨_, .letter hkept.1 hrole hop hnext⟩
      · rw [if_neg hmode] at hrole
        exact ⟨_, .quoted hkept.1 hrole⟩
    obtain ⟨ms, hstep⟩ := hstep
    rw [hstep.lexemes, ih hrest]
    rfl

theorem givesLetters_of_lexemes {mode : Mode} {t letters : Text}
    (h : lexemes mode t = letters.map .letter) : GivesLetters mode t letters := by
  refine ⟨?_, by simp [h]⟩
  rw [keptText_marks, h, List.flatMap_map]
  exact List.flatMap_singleton' letters

namespace GivesLetters

/-- A step gives its letters, and the rest of the text gives the others. -/
theorem step {mode mode' : Mode} {t rest letters : Text} {ms : List Mark}
    {lexeme : Option Lexeme} (h : GivesLetters mode t letters)
    (hstep : Step mode t ms lexeme mode' rest) :
    ∃ left, letters = keptText ms ++ left ∧ GivesLetters mode' rest left := by
  refine ⟨keptText (marks mode' rest), ?_, rfl, fun op hop => h.noOperator op ?_⟩
  · rw [← keptText_append, ← hstep.marks, h.kept]
  · rw [hstep.lexemes]
    exact List.mem_append_right _ hop

theorem not_operator {mode mode' : Mode} {t rest letters : Text} {ms : List Mark} {op : Operator}
    (h : GivesLetters mode t letters) : ¬ Step mode t ms (some (.operator op)) mode' rest :=
  fun hstep => h.noOperator op (by rw [hstep.lexemes]; exact List.mem_cons_self)

theorem length_le {mode : Mode} {t letters : Text} (h : GivesLetters mode t letters) :
    letters.length ≤ t.length := by
  rw [← h.kept, ← length_marks mode t]
  exact length_keptText_le _

/-- A text that loses nothing holds letters of its mode only. -/
theorem isLetterIn {mode : Mode} {t letters : Text} (h : GivesLetters mode t letters)
    (hlength : letters.length = t.length) : ∀ c ∈ t, IsLetterIn mode c := by
  induction mode, t using step_induction generalizing letters with
  | nil mode => simp
  | @step mode t ms lexeme mode' rest hstep ih =>
    obtain ⟨left, rfl, hleft⟩ := h.step hstep
    have hle := hleft.length_le
    have hms := length_keptText_le ms
    rw [List.length_append, hstep.length] at hlength
    have hkept : (keptText ms).length = ms.length := by omega
    have htail := ih hleft (by omega)
    cases hstep with
    | dangling => simp [keptText, Role.kept] at hkept
    | escape => simp [keptText, Role.kept] at hkept
    | quote _ => simp [keptText, Role.kept] at hkept
    | blank _ => simp [keptText, Role.kept] at hkept
    | pair hop => exact absurd (.pair hop) h.not_operator
    | lone hop hnext => exact absurd (.lone hop hnext) h.not_operator
    | quoted hc hrole =>
      refine List.forall_mem_cons.mpr ⟨⟨⟨hc, by rw [hrole]; rfl⟩, ?_⟩, htail⟩
      rintro rfl
      rcases quoted_cases hrole with ⟨hmode, -⟩ | ⟨hmode, -⟩ <;> cases hmode
    | letter hc hrole hop hnext =>
      refine List.forall_mem_cons.mpr ⟨⟨⟨hc, by rw [hrole]; rfl⟩, fun _ => ⟨?_, ?_⟩⟩, htail⟩
      · rintro rfl; cases hop
      · rintro rfl; cases hop

/-- A text that loses nothing is what is kept of it. -/
theorem eq_of_length {mode : Mode} {t letters : Text} (h : GivesLetters mode t letters)
    (hlength : letters.length = t.length) : letters = t := by
  have hsublist : (keptText (marks mode t)).Sublist ((marks mode t).map Mark.char) :=
    List.filter_sublist.map _
  rw [h.kept, map_char_marks] at hsublist
  exact hsublist.eq_of_length hlength

/-- A quotation mark at the end is lost, except inside single quotes. -/
theorem single_of_full {mode : Mode} {t letters : Text}
    (h : GivesLetters mode (t ++ ['"']) letters) (hlength : letters.length = t.length + 1) :
    mode = .single := by
  obtain ⟨hkept, -⟩ := h.isLetterIn (by simpa using hlength) '"' (by simp)
  cases mode with
  | bare => exact absurd hkept (by decide)
  | single => rfl
  | double => exact absurd hkept (by decide)

/-- What is kept of a text does not begin with a letter more than the text has. -/
theorem not_shifted {mode : Mode} {q : Char} (hrole : roleIn mode q = (mode, .quoted))
    (hq : q ≠ '\\') (t rest : Text) : ¬ GivesLetters mode (q :: t ++ rest) t := by
  induction t with
  | nil =>
    intro h
    obtain ⟨left, hleft, -⟩ := h.step (.quoted hq hrole)
    cases hleft
  | cons c t ih =>
    intro h
    obtain ⟨left, hleft, h⟩ := h.step (.quoted hq hrole)
    obtain ⟨rfl, rfl⟩ : c = q ∧ t = left := by simpa [keptText, Role.kept] using hleft
    exact ih h

end GivesLetters

/-- A text in front of a mark that closes double quotes. -/
theorem GivesLetters.isLetterIn_double {t : Text} (h : GivesLetters .double (t ++ ['"']) t) :
    ∀ c ∈ t, IsLetterIn .double c := by
  induction t with
  | nil => simp
  | cons c t ih =>
    by_cases hs : c = '\\'
    · subst hs
      exfalso
      cases t with
      | nil =>
        obtain ⟨left, hleft, -⟩ := h.step .escape
        cases hleft
      | cons d t =>
        obtain ⟨left, hleft, hrest⟩ := h.step .escape
        have hd : '\\' = d ∧ d :: t = left := by simpa [keptText, Role.kept] using hleft
        cases hrest.single_of_full (by rw [← hd.2]; rfl)
    by_cases hq : c = '"'
    · subst hq
      have hcloses : roleIn .double '"' = (.bare, .quote) := rfl
      obtain ⟨left, hleft, hrest⟩ := h.step (.quote hcloses)
      cases hrest.single_of_full (by rw [← show '"' :: t = left from hleft]; rfl)
    · have hrole : roleIn .double c = (.double, .quoted) := by simp [roleIn, hq]
      obtain ⟨left, hleft, hrest⟩ := h.step (.quoted hs hrole)
      obtain rfl : t = left := by simpa [keptText, Role.kept] using hleft
      exact List.forall_mem_cons.mpr ⟨⟨isKeptIn_double.mpr ⟨hq, hs⟩, by simp⟩, ih hrest⟩

/-- Outside quotes a text in front of a quotation mark that is lost has no blank. -/
theorem GivesLetters.not_mem_blank {t : Text} (h : GivesLetters .bare (t ++ ['"']) t) :
    ' ' ∉ t := by
  induction t with
  | nil => simp
  | cons c t ih =>
    obtain ⟨ms, lexeme, mode', rest, hstep⟩ := exists_step .bare (List.cons_ne_nil c (t ++ ['"']))
    obtain ⟨left, hleft, hrest⟩ := h.step hstep
    generalize hu : t ++ ['"'] = u at hstep
    cases hstep with
    | dangling => simp at hu
    | @escape _ d _ =>
      exfalso
      have hd : '\\' = d ∧ t = left := by simpa [keptText, Role.kept] using hleft
      obtain ⟨rfl, rfl⟩ := hd
      cases t with
      | nil => cases hu
      | cons d t =>
        obtain ⟨rfl, rfl⟩ := List.cons.inj hu
        cases hrest.single_of_full rfl
    | quote hrole =>
      exfalso
      obtain rfl : c :: t = left := hleft
      rw [← hu] at hrest
      obtain rfl := hrest.single_of_full rfl
      obtain ⟨rfl, -⟩ : c = '\'' ∧ _ := (quote_cases hrole).resolve_right (by simp)
      have hfull : ('\'' :: t).length = (t ++ ['"']).length := by simp
      have hmem : '\'' ∈ t ++ ['"'] := hrest.eq_of_length hfull ▸ List.mem_cons_self
      exact absurd (hrest.isLetterIn hfull _ hmem).1 (by decide)
    | quoted hc hrole => rcases quoted_cases hrole with ⟨hmode, -⟩ | ⟨hmode, -⟩ <;> cases hmode
    | blank hblank =>
      obtain rfl : c :: t = left := hleft
      rw [← hu] at hrest
      cases hrest.single_of_full rfl
    | pair hop =>
      rw [List.cons_append, hu] at h
      exact absurd (.pair hop) h.not_operator
    | lone hop hnext =>
      rw [List.cons_append, hu] at h
      exact absurd (.lone hop hnext) h.not_operator
    | letter hc hrole hop hnext =>
      obtain rfl : t = left := by simpa [keptText, Role.kept] using hleft
      rw [← hu] at hrest
      have hblank := (bare_cases hrole).2.2
      refine List.not_mem_cons_of_ne_of_not_mem ?_ (ih hrest)
      rintro rfl
      exact absurd hblank (by decide)

/-- Where a character that opens a quotation stands, it opens one, closes one, or is a letter. -/
theorem quote_or_quoted {opened : Mode} {q : Char} (hq : roleIn .bare q = (opened, .quote))
    (mode : Mode) :
    (∃ mode', roleIn mode q = (mode', .quote)) ∨ roleIn mode q = (mode, .quoted) ∧ q ≠ '\\' := by
  rcases quote_cases hq with ⟨rfl, -⟩ | ⟨rfl, -⟩
  · cases mode
    · exact .inl ⟨_, rfl⟩
    · exact .inl ⟨_, rfl⟩
    · exact .inr (by decide)
  · cases mode
    · exact .inl ⟨_, rfl⟩
    · exact .inr (by decide)
    · exact .inl ⟨_, rfl⟩

namespace GivesLetters

theorem lexemes_plain {mode : Mode} {t : Text} (h : GivesLetters mode t t) :
    lexemes mode t = t.map .letter :=
  lexemes_letters (h.isLetterIn rfl)

/-- A text behind a quotation mark that nothing closes. -/
theorem lexemes_inside {mode opened : Mode} {q : Char} {t : Text}
    (hq : roleIn .bare q = (opened, .quote)) (h : GivesLetters mode (q :: t) t) :
    lexemes mode (q :: t) = t.map .letter := by
  rcases quote_or_quoted hq mode with ⟨mode', hrole⟩ | ⟨hrole, hs⟩
  · obtain ⟨left, rfl, hrest⟩ := h.step (.quote hrole)
    rw [(Step.quote hrole).lexemes]
    exact hrest.lexemes_plain
  · exact absurd h (by simpa using not_shifted hrole hs t [])

/-- A text with a blank in it between double quotes. -/
theorem lexemes_between {mode : Mode} {t : Text} (hblank : ' ' ∈ t)
    (h : GivesLetters mode ('"' :: t ++ ['"']) t) :
    mode = .bare ∧ ∀ c ∈ t, IsLetterIn .double c := by
  cases mode with
  | bare =>
    have hopens : roleIn .bare '"' = (.double, .quote) := rfl
    obtain ⟨left, rfl, hrest⟩ := h.step (.quote hopens)
    exact ⟨rfl, hrest.isLetterIn_double⟩
  | single => exact absurd h (not_shifted rfl (by decide) t ['"'])
  | double =>
    have hcloses : roleIn .double '"' = (.bare, .quote) := rfl
    obtain ⟨left, rfl, hrest⟩ := h.step (.quote hcloses)
    exact absurd hblank hrest.not_mem_blank

end GivesLetters

/-- Outside quotes a text is read letter by letter if nothing in it quotes, separates or
redirects. -/
theorem lexemes_plain_iff (t : Text) :
    lexemes .bare t = t.map .letter ↔ ∀ c ∈ t, IsLetterIn .bare c :=
  ⟨fun h => (givesLetters_of_lexemes h).isLetterIn rfl, lexemes_letters⟩

/-- In an open quotation a text is read letter by letter if nothing in it closes or escapes. -/
theorem lexemes_inside_iff {opened : Mode} {q : Char} (hq : roleIn .bare q = (opened, .quote))
    (t : Text) : lexemes .bare (q :: t) = t.map .letter ↔ ∀ c ∈ t, IsLetterIn opened c := by
  rw [(Step.quote hq).lexemes]
  refine ⟨fun h => (givesLetters_of_lexemes h).isLetterIn rfl, fun h => ?_⟩
  exact lexemes_letters h

theorem guarded_eq_self {t : Text} (h : ∀ c ∈ t, IsLetterIn .double c) : guarded '"' t = t := by
  induction t with
  | nil => rfl
  | cons c t ih =>
    have hc := isKeptIn_double.mp (h c List.mem_cons_self).1
    rw [guarded, List.flatMap_cons, ← guarded, ih fun d hd => h d (List.mem_cons_of_mem _ hd),
      if_neg (by simpa using hc)]
    rfl

/-- Between double quotes as well. -/
theorem lexemes_between_iff (t : Text) :
    lexemes .bare ('"' :: t ++ ['"']) = t.map .letter ↔ ∀ c ∈ t, IsLetterIn .double c := by
  constructor
  · intro h
    have hopens : roleIn .bare '"' = (.double, .quote) := rfl
    obtain ⟨left, rfl, hrest⟩ := (givesLetters_of_lexemes h).step (.quote hopens)
    exact hrest.isLetterIn_double
  · intro h
    have hspelled := lexemes_spelled .doubleQuoted t []
    rw [Spelling.write, guarded_eq_self h, List.append_nil] at hspelled
    rw [hspelled, lexemes, List.append_nil]

/-- The operators among lexemes. -/
def Lexeme.operator? : Lexeme → Option Operator
  | .operator op => some op
  | _ => none

theorem operators_close (letters : Text) (tokens : List Token) :
    (close letters tokens).filterMap Token.operator? = tokens.filterMap Token.operator? := by
  cases letters <;> rfl

theorem operators_group (parts : List Lexeme) :
    (group parts).filterMap Token.operator? = parts.filterMap Lexeme.operator? := by
  have hgrouped : (grouped parts).2.filterMap Token.operator? =
      parts.filterMap Lexeme.operator? := by
    induction parts with
    | nil => rfl
    | cons part parts ih =>
      cases part with
      | letter c => exact ih
      | gap => exact (operators_close _ _).trans ih
      | operator op =>
        exact congrArg (op :: ·) ((operators_close _ _).trans ih)
  rw [group, operators_close, hgrouped]

/-- The last character of a text separates words: it is a blank outside quotes, and no escape stands
before it. -/
def Separated (before : Text) : Prop :=
  ∀ m ∈ (marks .bare before).getLast?, m.role = .blank

instance (before : Text) : Decidable (Separated before) :=
  inferInstanceAs (Decidable (∀ m ∈ (marks .bare before).getLast?, m.role = .blank))

/-- Behind a letter, more letters go on with its word. -/
theorem group_ne_of_letter (parts : List Lexeme) (c : Char) (word : Text) :
    group (parts ++ .letter c :: word.map .letter) ≠
      group (parts ++ [.letter c]) ++ [.word word] := by
  intro h
  obtain ⟨before, letters, hbefore, hends⟩ := exists_letters (parts ++ [.letter c])
  have hletters : letters ≠ [] := by
    rintro rfl
    rw [List.map_nil, List.append_nil] at hbefore
    exact hends c (by rw [← hbefore]; simp)
  rw [← List.singleton_append, ← List.append_assoc, hbefore, List.append_assoc, ← List.map_append,
    group_append hends, group_append hends, group_word _ (by simp [hletters]),
    group_word _ hletters, List.append_assoc] at h
  have hlength := congrArg List.length (List.append_cancel_left h)
  simp at hlength

/-- A text behind a blank is read as one more word just if the blank separates words and the text
is read letter by letter as that word. The text must be such that to keep the word of it, in
whatever mode, is to read it so. -/
theorem tokenize_word_iff {before : Text} {c : Char} (hc : Text.isBlank c = true)
    {r word : Text}
    (hr : ∀ mode, GivesLetters mode r word → lexemes mode r = word.map .letter) :
    tokenize (before ++ [c] ++ r) = tokenize (before ++ [c]) ++ [.word word] ↔
      Separated (before ++ [c]) ∧ word ≠ [] ∧ lexemes .bare r = word.map .letter := by
  obtain ⟨part, role, hpart, hread⟩ := lexemesFrom_blank (modeAfter .bare before) hc
  have hlong := read_append .bare before (c :: r)
    (.of_head (fun d hd => by cases hd; exact blank_not_operatorSign hc) _)
  have hshort := read_append .bare before [c]
    (.of_head (fun d hd => by cases hd; exact blank_not_operatorSign hc) _)
  generalize modeAfter .bare before = left at hpart hread hlong hshort
  rw [(hread r).1, (hread r).2] at hlong
  rw [(hread []).1, (hread []).2, lexemes, marks] at hshort
  have hseparated : Separated (before ++ [c]) ↔ role = .blank := by
    rw [Separated, hshort.2]
    simp
  rw [List.append_assoc, List.singleton_append, hseparated]
  constructor
  · intro h
    -- the texts of the tokens tell what is kept of `r`, and their operators that it has none
    have hgives : GivesLetters left.1 r word := by
      constructor
      · have htext := congrArg (List.flatMap Token.text) h
        rw [List.flatMap_append, text_tokenize, text_tokenize, hlong.2, hshort.2,
          keptText_append, keptText_append, ← List.singleton_append, keptText_append,
          ← List.append_assoc] at htext
        simpa [Token.text] using List.append_cancel_left htext
      · intro op hop
        have hops := congrArg (List.filterMap Token.operator?) h
        rw [List.filterMap_append, tokenize, tokenize, operators_group, operators_group, hlong.1,
          hshort.1, ← List.singleton_append, ← List.append_assoc, List.filterMap_append] at hops
        have hnone : (lexemes left.1 r).filterMap Lexeme.operator? = [] :=
          List.append_cancel_left hops
        exact List.filterMap_eq_nil_iff.mp hnone _ hop |> Option.some_ne_none _
    have hword : word ≠ [] := by
      rintro rfl
      exact nil_not_mem_group (lexemes .bare (before ++ c :: r)) (by
        rw [← tokenize, h]; simp)
    have hletters := hr left.1 hgives
    rw [tokenize, tokenize, hlong.1, hshort.1, hletters] at h
    rcases hpart with ⟨-, hrole, rfl⟩ | ⟨rfl, -⟩
    · exact ⟨hrole, hword, hletters⟩
    · exact absurd h (group_ne_of_letter _ c word)
  · rintro ⟨hrole, hword, hletters⟩
    obtain ⟨rfl, -, rfl⟩ := hpart.resolve_right fun hletter => hletter.2 hrole
    rw [tokenize, tokenize, hlong.1, hshort.1, hletters, ← List.singleton_append,
      ← List.append_assoc, group_append (by simp [EndsWord]), group_word word hword]

end LineShell.Line

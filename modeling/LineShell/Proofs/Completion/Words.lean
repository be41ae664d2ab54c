import LineShell.Proofs.Completion.ReadBack
import LineShell.Proofs.Line.Ordinary
import LineShell.Text.Utf8

/-! The cut in front of the word that a line ends in, by the completer and by the reader of lines.
The completer goes along a line once and minds quotes and blanks alone; where a line has no other
signs in it, both are in the same quotation at every character, and cut at the same blanks. -/

namespace LineShell.Completion

open Line

/-- The quotation that a reader of a line is in. -/
def Reader.mode (r : Reader) : Mode :=
  if r.single then .single else if r.double then .double else .bare

/-- A reader goes on at one character: a blank outside quotes closes the word, and any other
character belongs to it. -/
theorem Reader.push_cases {r : Reader} (hkind : r.single = true → r.double = false) (c : Char) :
    (r.mode = .bare ∧ Text.isBlank c = true ∧ (r.push c) =
      { r with
        before := c :: (r.word ++ r.before)
        word := []
        completed := if r.word.isEmpty then r.completed else r.completed + 1 }) ∨
    ((roleIn r.mode c).2 ≠ .blank ∧ (r.push c).mode = (roleIn r.mode c).1 ∧
      (r.push c).word = c :: r.word ∧ (r.push c).before = r.before ∧
      (r.push c).completed = r.completed ∧
      ((r.push c).single = true → (r.push c).double = false)) := by
  obtain ⟨single, double, before, word, completed⟩ := r
  cases single <;> cases double <;> simp only [Reader.push, Reader.mode] at hkind ⊢
  · by_cases hs : c = '\''
    · simp [hs, roleIn]
    · by_cases hd : c = '"'
      · simp [hd, roleIn]
      · by_cases hb : Text.isBlank c = true <;> simp [hs, hd, hb, roleIn]
  · by_cases hd : c = '"' <;> simp [hd, roleIn]
  · by_cases hs : c = '\'' <;> simp [hs, roleIn]
  · simp at hkind

/-- A reader of ordinary characters stands where the words of the line are cut. -/
structure Reader.Follows (line : Text) (r : Reader) : Prop where
  text : r.before.reverse ++ r.word.reverse = line
  oneKind : r.single = true → r.double = false
  mode : quotation .bare r.word.reverse = r.mode
  outside : r.before = [] ∨ EndsInBlank r.before.reverse
  letters : ∃ letters : Text, lexemes .bare r.word.reverse = letters.map .letter
  first : NoEmptyWord line → (r.completed = 0 ↔ tokenize r.before.reverse = [])

namespace Reader.Follows

variable {line : Text} {r : Reader}

theorem start : Follows [] {} where
  text := rfl
  oneKind := fun _ => rfl
  mode := rfl
  outside := .inl rfl
  letters := ⟨[], rfl⟩
  first := fun _ => iff_of_true rfl rfl

theorem ordinary_before (h : r.Follows line) (hline : ∀ c ∈ line, IsOrdinary c) :
    ∀ c ∈ r.before.reverse, IsOrdinary c := by
  intro c hc
  apply hline
  rw [← h.text]
  exact List.mem_append_left _ hc

theorem ordinary_word (h : r.Follows line) (hline : ∀ c ∈ line, IsOrdinary c) :
    ∀ c ∈ r.word.reverse, IsOrdinary c := by
  intro c hc
  apply hline
  rw [← h.text]
  exact List.mem_append_right _ hc

/-- The two parts of the line are read apart. -/
theorem tokenize_eq (h : r.Follows line) :
    tokenize line = tokenize r.before.reverse ++ tokenize r.word.reverse := by
  rw [← h.text]
  rcases h.outside with hbefore | hblank
  · rw [hbefore]
    rfl
  · exact hblank.tokenize_append _

/-- No quotation reaches into the word. -/
theorem quotation_before (h : r.Follows line) (hline : ∀ c ∈ line, IsOrdinary c) :
    quotation .bare r.before.reverse = .bare := by
  rcases h.outside with hbefore | hblank
  · rw [hbefore]
    rfl
  · exact hblank.quotation (h.ordinary_before hline)

theorem quotation_line (h : r.Follows line) (hline : ∀ c ∈ line, IsOrdinary c) :
    quotation .bare line = r.mode := by
  conv_lhs => rw [← h.text]
  rw [quotation_append, h.quotation_before hline, h.mode]

/-- The word is of letters alone, so a blank that ends the line is none of it. -/
theorem word_eq_nil_iff (h : r.Follows line) (hline : ∀ c ∈ line, IsOrdinary c) :
    r.word = [] ↔ line = [] ∨ EndsInBlank line := by
  constructor
  · intro hword
    have htext := h.text
    rw [hword, List.reverse_nil, List.append_nil] at htext
    rw [← htext, List.reverse_eq_nil_iff]
    exact h.outside
  · rintro (rfl | ⟨front, c, rfl, hblank, hmode⟩)
    · exact List.reverse_eq_nil_iff.mp (List.append_eq_nil_iff.mp h.text).2
    · by_contra hne
      obtain ⟨d, word, hword⟩ := List.exists_cons_of_ne_nil hne
      obtain ⟨letters, hletters⟩ := h.letters
      have hordinary := h.ordinary_word hline
      have htext := h.text
      rw [hword, List.reverse_cons] at hletters hordinary htext
      rw [← List.append_assoc] at htext
      obtain ⟨hfront, hlast⟩ := List.append_inj' htext rfl
      obtain rfl : d = c := List.singleton_inj.mp hlast
      have hbare : quotation .bare word.reverse = .bare := by
        rw [modeAfter_ordinary .bare fun e he => hline e (List.mem_append_left [d] he),
          ← hfront, quotation_append, h.quotation_before hline] at hmode
        exact (Prod.mk.inj hmode).1
      have hfirst : ∀ e ∈ word.reverse, IsOrdinary e :=
        fun e he => hordinary e (List.mem_append_left [d] he)
      rw [lexemes_append .bare hfirst fun e he => hordinary e (List.mem_append_right _ he), hbare,
        lexemes_blank hblank] at hletters
      have hgap : Lexeme.gap ∈ letters.map .letter := by
        rw [← hletters]
        exact List.mem_append_right _ List.mem_cons_self
      obtain ⟨e, -, he⟩ := List.mem_map.mp hgap
      cases he

/-- A word without letters is of empty quotes, as no quotation is left open behind it. -/
theorem tokenize_word_ne_nil (h : r.Follows line) (hline : ∀ c ∈ line, IsOrdinary c)
    (hbare : r.mode = .bare) (hword : r.word ≠ []) {c : Char} (hblank : Text.isBlank c = true)
    (hempty : NoEmptyWord (line ++ [c])) : tokenize r.word.reverse ≠ [] := by
  intro hnone
  obtain ⟨letters, hletters⟩ := h.letters
  rw [tokenize, hletters, group_map_letter, close] at hnone
  have hnil : letters = [] := by
    split at hnone
    case isTrue hisEmpty => exact List.isEmpty_iff.mp hisEmpty
    case isFalse => cases hnone
  rw [hnil, List.map_nil] at hletters
  refine hempty r.before.reverse r.word.reverse c [] ?_ ?_ hblank ?_ ?_
  · rw [h.text]
  · rw [List.reverse_eq_nil_iff]
    exact h.outside
  · rwa [ne_eq, List.reverse_eq_nil_iff]
  · exact emptyQuotes_of_lexemes (h.ordinary_word hline) hletters (h.mode.trans hbare)

/-- One more character keeps a reader with the line. -/
theorem push (h : r.Follows line) {c : Char} (hline : ∀ d ∈ line ++ [c], IsOrdinary d) :
    (r.push c).Follows (line ++ [c]) := by
  have hfront : ∀ d ∈ line, IsOrdinary d := fun d hd => hline d (List.mem_append_left [c] hd)
  have hword := h.ordinary_word hfront
  have hc : ∀ d ∈ [c], IsOrdinary d := fun d hd => hline d (List.mem_append_right line hd)
  obtain ⟨hbare, hblank, hpush⟩ | ⟨hrole, hmode, hwords, hbefore, hcompleted, hkind⟩ :=
    push_cases h.oneKind c
  · -- the blank closes the word, and all of the line is in front of the next one
    have hleft : modeAfter .bare line = (.bare, false) := by
      rw [modeAfter_ordinary .bare hfront, h.quotation_line hfront, hbare]
    have hclosed : (c :: (r.word ++ r.before)).reverse = line ++ [c] := by
      rw [List.reverse_cons, List.reverse_append, h.text]
    rw [hpush]
    refine ⟨?_, h.oneKind, hbare.symm, .inr ?_, ⟨[], rfl⟩, ?_⟩
    · simp only [hclosed, List.reverse_nil, List.append_nil]
    · simp only [hclosed]
      exact ⟨line, c, rfl, hblank, hleft⟩
    · intro hempty
      simp only [hclosed]
      rw [tokenize_blank hblank hleft, h.tokenize_eq, List.append_eq_nil_iff]
      by_cases hnil : r.word = []
      · rw [hnil, List.reverse_nil, List.isEmpty_nil, if_pos rfl, h.first hempty.of_append]
        exact (and_iff_left rfl).symm
      · rw [if_neg (by simpa using hnil)]
        have hsome := h.tokenize_word_ne_nil hfront hbare hnil hblank hempty
        exact iff_of_false (Nat.succ_ne_zero _) fun hnone => hsome hnone.2
  · -- the character is one more of the word
    refine ⟨?_, hkind, ?_, ?_, ?_, ?_⟩
    · rw [hwords, hbefore, List.reverse_cons, ← List.append_assoc, h.text]
    · rw [hwords, hmode, List.reverse_cons, quotation_append, h.mode]
      rfl
    · rw [hbefore]
      exact h.outside
    · obtain ⟨letters, hletters⟩ := h.letters
      rw [hwords, List.reverse_cons, lexemes_append .bare hword hc, hletters, h.mode,
        lexemes_ordinary _ hc]
      cases hlexeme : lexemeIn r.mode c with
      | none => exact ⟨letters, List.append_nil _⟩
      | some lexeme =>
        obtain rfl : lexeme = .letter c := by
          unfold lexemeIn at hlexeme
          split at hlexeme <;> simp_all
        exact ⟨letters ++ [c], by simp [lexemes]⟩
    · intro hempty
      rw [hcompleted, hbefore]
      exact h.first hempty.of_append

/-- A reader that went along a line follows it. -/
theorem foldl_push (hline : ∀ c ∈ line, IsOrdinary c) :
    (line.foldl Reader.push {}).Follows line := by
  induction line using List.reverseRecOn with
  | nil => exact .start
  | append_singleton line c ih =>
    rw [List.foldl_append]
    exact (ih fun d hd => hline d (List.mem_append_left [c] hd)).push hline

end Reader.Follows

/-- The completer cuts a line of ordinary characters where the reader of lines cuts it: the tokens
of the line are those in front of the current word and at most one of the word itself, which begins
at the start or behind a blank outside quotes. The word is the first one just if nothing is read in
front of it, unless there are words of empty quotes, which the completer counts alone. -/
theorem tokenize_currentWord {line : Text} (hline : ∀ c ∈ line, IsOrdinary c) :
    (currentWord line).before ++ (currentWord line).word = line ∧
    (Text.encode line).drop (Text.encode (currentWord line).before).length =
      Text.encode (currentWord line).word ∧
    tokenize line = tokenize (currentWord line).before ++ tokenize (currentWord line).word ∧
    (tokenize (currentWord line).word).length ≤ 1 ∧
    ((currentWord line).word = [] ↔ line = [] ∨ EndsInBlank line) ∧
    ((currentWord line).before = [] ∨ EndsInBlank (currentWord line).before) ∧
    (NoEmptyWord line →
      ((currentWord line).isFirst = true ↔ tokenize (currentWord line).before = [])) := by
  have h := Reader.Follows.foldl_push hline
  have hword := h.word_eq_nil_iff hline
  have hbefore := h.outside
  rw [← List.reverse_eq_nil_iff] at hword hbefore
  refine ⟨h.text, ?_, h.tokenize_eq, ?_, hword, hbefore, ?_⟩
  · conv_lhs => arg 2; rw [← before_append_word line]
    rw [Text.encode, Text.encode, List.flatMap_append, List.drop_left]
    rfl
  · obtain ⟨letters, hletters⟩ := h.letters
    rw [currentWord, tokenize, hletters, group_map_letter, close]
    split <;> simp
  · intro hempty
    rw [currentWord, decide_eq_true_iff]
    exact h.first hempty

/-- A quotation of the other kind inside one, and another one that the line leaves open. -/
theorem tokenize_currentWord_open :
    (∀ c ∈ "grep \"it's\" d'é \"x".toList, IsOrdinary c) ∧
    NoEmptyWord "grep \"it's\" d'é \"x".toList ∧
    currentWord "grep \"it's\" d'é \"x".toList =
      ⟨"grep \"it's\" ".toList, "d'é \"x".toList, false⟩ ∧
    tokenize "grep \"it's\" d'é \"x".toList =
      tokenize "grep \"it's\" ".toList ++ tokenize "d'é \"x".toList ∧
    tokenize "grep \"it's\" ".toList ≠ [] := by
  have hall : ("grep \"it's\" d'é \"x".toList.all fun c => decide (IsOrdinary c)) = true := by
    decide
  have hline : ∀ c ∈ "grep \"it's\" d'é \"x".toList, IsOrdinary c :=
    fun c hc => of_decide_eq_true (List.all_eq_true.mp hall c hc)
  have hempty : NoEmptyWord "grep \"it's\" d'é \"x".toList :=
    .of_isChain (by decide)
  have hcurrent : currentWord "grep \"it's\" d'é \"x".toList =
      ⟨"grep \"it's\" ".toList, "d'é \"x".toList, false⟩ := by decide
  obtain ⟨-, -, hread, -, -, -, hfirst⟩ := tokenize_currentWord hline
  rw [hcurrent] at hread hfirst
  exact ⟨hline, hempty, hcurrent, hread, fun hnone => Bool.noConfusion ((hfirst hempty).mpr hnone)⟩

/-- The completer counts a word of empty quotes, of which the reader of lines makes no token. -/
example : (currentWord "'' a".toList).isFirst = false ∧ tokenize "'' ".toList = [] := by
  decide

end LineShell.Completion

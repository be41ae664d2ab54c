import LineShell.Proofs.Line.Unquoted
import LineShell.Proofs.Session.Effects
import LineShell.Proofs.Session.Starts
import LineShell.Proofs.Text.Lowercase

/-! Which lines end the session. The name of a command that ends it is looked for in the line as it
was typed, before anything is parsed, so that the name has to stand there without any quoting. -/

namespace LineShell.Session

open Program

/-- A line that is parsed to `exit` or `quit`, in whatever case, with no argument and with no
redirection. -/
def IsBareExit (line : Text) : Prop :=
  ∃ i, Line.parse line = .ok (i, {}) ∧ i.arguments = [] ∧
    (i.key = "exit".toList ∨ i.key = "quit".toList)

theorem isBareExit_iff_tokenize {line : Text} : IsBareExit line ↔
    ∃ name, Line.tokenize line = [.word name] ∧
      (Text.lower name = "exit".toList ∨ Text.lower name = "quit".toList) := by
  constructor
  · rintro ⟨i, hparse, hnone, hname⟩
    have htokens := Line.parse_eq_plain_iff.mp hparse
    rw [hnone] at htokens
    exact ⟨i.name, htokens, hname⟩
  · rintro ⟨name, htokens, hname⟩
    exact ⟨{ name, arguments := [] }, Line.parse_eq_plain_iff.mpr htokens, rfl, hname⟩

/-- What a line is parsed to tells whether it is a bare `exit`. -/
theorem IsBareExit.parsed {line : Text} {i : Line.Invocation} {r : Line.Redirection}
    (h : IsBareExit line) (hparse : Line.parse line = .ok (i, r)) :
    r = {} ∧ i.arguments = [] ∧ (i.key = "exit".toList ∨ i.key = "quit".toList) := by
  obtain ⟨i', hparse', hrest⟩ := h
  obtain ⟨rfl, rfl⟩ := Prod.mk.inj (Except.ok.inj (hparse'.symm.trans hparse))
  exact ⟨rfl, hrest⟩

/-- The names that end the session are read as they stand, with no quoting. -/
theorem isPlain_exitCommands : ∀ name ∈ Registry.exitCommands, ∀ c ∈ name, Line.IsPlain c := by
  simp only [Registry.exitCommands, List.forall_mem_cons, List.not_mem_nil, false_imp_iff,
    implies_true, and_true]
  exact ⟨List.all_iff_forall_prop.mp rfl, List.all_iff_forall_prop.mp rfl⟩

section Name

variable {name : Text}
  (hname : Text.lower name = "exit".toList ∨ Text.lower name = "quit".toList)

include hname

/-- In a text that stands for `exit` or `quit` no sign is found that lowercase leaves alone. -/
theorem not_mem_of_lower {c : Char} (hsmall : Text.IsSmall c) (hplain : ¬Line.IsPlain c) :
    c ∉ name := by
  intro hc
  have hmem := hsmall.mem_lower hc
  rcases hname with hname | hname
  · exact hplain (isPlain_exitCommands _ (by decide) c (hname ▸ hmem))
  · exact hplain (isPlain_exitCommands _ (by decide) c (hname ▸ hmem))

/-- A line that adds nothing but blanks to the name has no sign of a redirection. -/
theorem not_sign_of_lower {line : Text} (hkept : ∀ c ∈ line, Text.isBlank c = false → c ∈ name) :
    ∀ c ∈ line, c ≠ '<' ∧ c ≠ '>' := by
  intro c hc
  constructor
  · rintro rfl
    exact not_mem_of_lower hname (by decide) (by decide) (hkept _ hc (by decide))
  · rintro rfl
    exact not_mem_of_lower hname (by decide) (by decide) (hkept _ hc (by decide))

end Name

section Typed

theorem isSmall_quotingSign {c : Char} (hc : c ∈ Line.quotingSigns) : Text.IsSmall c := by
  simp only [Line.quotingSigns, List.mem_cons, List.not_mem_nil, or_false] at hc
  rcases hc with rfl | rfl | rfl <;> decide

variable {line : Text}

theorem IsBareExit.isExit (h : IsBareExit line) (hline : Line.Unquoted line) :
    Session.isExit line = true := by
  obtain ⟨name, htokens, hname⟩ := isBareExit_iff_tokenize.mp h
  have hkept : ∀ c ∈ line, Text.isBlank c = false → c ∈ name := by
    intro c hc hblank
    have htext : name = line.filter (!Text.isBlank ·) := by
      rw [← Line.keptText_unquoted hline, ← Line.text_tokenize, htokens]
      exact (List.append_nil name).symm
    rw [htext]
    exact List.mem_filter.mpr ⟨hc, by simp [hblank]⟩
  rw [Line.tokenize_unquoted hline (not_sign_of_lower hname hkept)] at htokens
  obtain ⟨word, hwords, hword⟩ := List.map_eq_singleton_iff.mp htokens
  cases hword
  rw [isExit_iff, (Text.words_eq_singleton_iff.mp hwords).1]
  exact hname

theorem isBareExit_of_isExit (h : isExit line = true) :
    IsBareExit line ∧ Line.Unquoted line := by
  have hname := (isExit_iff line).mp h
  have hquote : Line.Unquoted line := by
    intro c hc hsign
    have hblank : Text.isBlank c = false := by
      rw [Bool.eq_false_iff]
      exact fun hblank => Line.blank_not_quotingSign hblank hsign
    exact not_mem_of_lower hname (isSmall_quotingSign hsign) (fun hplain => hplain.2.2 hsign)
      (Text.mem_trim hblank hc)
  have hsign := not_sign_of_lower hname fun c hc hblank => Text.mem_trim hblank hc
  have hword : Text.IsWord (Text.trim line) := by
    refine ⟨fun hnil => ?_, fun c hc => ?_⟩
    · rw [hnil] at hname
      rcases hname with hname | hname <;> exact absurd hname (by decide)
    · rw [Bool.eq_false_iff]
      intro hblank
      exact not_mem_of_lower hname (Text.isSmall_of_isBlank hblank)
        (fun hplain => by simp [hplain.1] at hblank) hc
  refine ⟨isBareExit_iff_tokenize.mpr ⟨Text.trim line, ?_, hname⟩, hquote⟩
  rw [Line.tokenize_unquoted hquote hsign, Text.words_eq_singleton_iff.mpr ⟨rfl, hword⟩]
  rfl

/-- What is looked for in the line as it was typed is a bare `exit` in which nothing is quoted. -/
theorem isExit_iff_isBareExit : isExit line = true ↔ IsBareExit line ∧ Line.Unquoted line :=
  ⟨isBareExit_of_isExit, fun h => h.1.isExit h.2⟩

end Typed

/-- A line ends the session if it is parsed to a bare `exit` and nothing in it is quoted. A session
that is to end stays so. -/
theorem ended_execute_iff (host : Host) (s : Session) (around : Surroundings) (line : Text) :
    (s.execute host around line).1.ended = true ↔
      s.ended = true ∨ IsBareExit line ∧ Line.Unquoted line := by
  rw [← isExit_iff_isBareExit]
  rcases s.execute_cases host around line with
    ⟨hexit, h⟩ | ⟨e, hexit, hparse, h⟩ | ⟨i, r, hexit, hparse, h⟩
  · rw [h, hexit]
    exact iff_of_true rfl (.inr rfl)
  · rw [h, hexit]
    simp
  · rw [h, hexit, s.ended_carryOut host around r]
    simp

/-- A bare `exit` between quotes does not end the session: it is a command that is not found. -/
theorem not_ended_quotedExit :
    IsBareExit "\"exit\"" ∧ (withProgram ['p']).ended = false ∧
      ((withProgram ['p']).execute (refusing .notRegular) searchingRoot "\"exit\"").1.ended =
        false ∧
      ((withProgram ['p']).execute (refusing .notRegular) searchingRoot "\"exit\"").2 =
        .answered (.failure "Command 'exit' not found. Type 'help' for a list of commands") := by
  have hparse : Line.parse "\"exit\"" =
      .ok ({ name := "exit".toList, arguments := [] }, {}) := by
    decide
  have hrun := execute_of_parse (refusing .notRegular) (withProgram ['p']) searchingRoot
    (by decide) hparse (d := .notFound) (by decide)
  exact ⟨⟨_, hparse, rfl, .inl (by decide)⟩, rfl, by rw [hrun]; rfl, by rw [hrun]; rfl⟩

end LineShell.Session

import LineShell.Proofs.Session.Crash
import LineShell.Proofs.Session.Input
import LineShell.Proofs.Session.Loop
import LineShell.Proofs.Text.Grapheme

/-! Whether colours are used along the lines of a session. A line that sends its message to a file
turns colours off while it is carried out, and leaves that to be undone where it crashes. -/

namespace LineShell.Session

open Program

variable (host : Host) (s : Session) (around : Surroundings)

/-- A line sends the message of a command to a file, and the command crashes. -/
def CrashesRedirected (w : Commands.Workspace) (line : Text) : Prop :=
  isExit line = false ∧ ∃ i r target, Line.parse line = .ok (i, r) ∧ r.output = some target ∧
    Crashes host around w i.arguments (Dispatch.ofKey i.key)

theorem coloursOverride_carryOut_redirected (i : Line.Invocation) {r : Line.Redirection}
    {target : Text} (htarget : r.output = some target) :
    (s.carryOut host around i r).1.coloursOverride = none ↔
      (s.carryOut host around i r).2.IsAnswered := by
  have henters := { s with coloursOverride := some false }.enters_dispatch host around i
  rcases s.carryOut_redirected_cases host around i htarget with
    ⟨s', ending, hnone, hdispatch, hout⟩ | ⟨s', o, s'', o', hdispatch, halike, hout⟩ <;> rw [hout]
  · rw [hdispatch] at henters
    have hoff : s'.coloursOverride = some false := henters.coloursOverride
    exact iff_of_false (by simp [hoff]) fun ⟨o, ho⟩ => hnone o ho
  · exact iff_of_true halike.coloursOverride ⟨o', rfl⟩

/-- A line that the shell outlives leaves colours as they were, unless it crashes with its message
on the way to a file. -/
theorem coloursOverride_execute_iff (hs : s.coloursOverride = none) (line : Text) :
    ((s.execute host around line).2.isAborted = false →
        (s.execute host around line).1.coloursOverride = none) ↔
      ¬CrashesRedirected host around s.workspace line := by
  rw [execute, CrashesRedirected]
  split
  case isTrue hexit => exact iff_of_true (fun _ => hs) (by simp [hexit])
  case isFalse hexit =>
    rw [Bool.not_eq_true] at hexit
    split
    case h_1 e hparse => exact iff_of_true (fun _ => hs) (by simp [hparse])
    case h_2 i r hparse =>
      cases htarget : r.output with
      | none =>
        have hdispatch := s.enters_dispatch host around i
        rw [carryOut, htarget]
        refine iff_of_true (fun _ => hdispatch.coloursOverride.trans hs) ?_
        rintro ⟨-, i', r', target, hparse', htarget', -⟩
        obtain ⟨-, rfl⟩ := Prod.mk.inj (Except.ok.inj (hparse.symm.trans hparse'))
        rw [htarget] at htarget'
        cases htarget'
      | some target =>
        have hends := s.endsAs_carryOut host around i r
        have hcrashes : (∃ i' r' target', Line.parse line = .ok (i', r') ∧
            r'.output = some target' ∧
            Crashes host around s.workspace i'.arguments (Dispatch.ofKey i'.key)) ↔
            Crashes host around s.workspace i.arguments (Dispatch.ofKey i.key) := by
          simp [hparse, htarget]
        rw [coloursOverride_carryOut_redirected host s around i htarget, hends.isAnswered_iff,
          ← Bool.not_eq_true, hends.isAborted_iff, and_iff_right hexit, hcrashes]
        exact ⟨fun h hc => (h (hends.not_aborts hc)).1 hc, fun hc ha => ⟨hc, ha⟩⟩

theorem coloursOverride_runLine_iff (hs : s.coloursOverride = none) (line : Text) :
    ((runLine host around s line).1.aborted = false →
        (runLine host around s line).1.coloursOverride = none) ↔
      ¬CrashesRedirected host around s.workspace line :=
  coloursOverride_execute_iff host { s with history := s.history.add line } around hs line

/-- The lines of a session as its loop comes to them, each with the session it is carried out in. -/
inductive Reads (host : Host) (around : Surroundings) : Session → Session → Text → Prop
  | here {s s' : Session} {line : Text} (hread : s.readLine = (.line line, s')) (hne : line ≠ []) :
      Reads host around s s' line
  | blank {s s' s'' : Session} {line : Text} (hread : s.readLine = (.line [], s'))
      (h : Reads host around s' s'' line) : Reads host around s s'' line
  | later {s s' s'' : Session} {first line : Text} (hread : s.readLine = (.line first, s'))
      (hne : first ≠ []) (hgoes : (runLine host around s' first).1.isOver = false)
      (h : Reads host around (runLine host around s' first).1 s'' line) :
      Reads host around s s'' line

section RunLines

variable {host around s} {s' : Session} {prompting : Bool} {line : Text}

theorem aborted_of_isOver (h : s.isOver = false) : s.aborted = false :=
  (Bool.or_eq_false_iff.mp h).2

/-- Where nothing is ever said of colours, no line has crashed on its way to a file. -/
theorem Reads.not_crashesRedirected (h : Reads host around s s' line)
    (hs : s.coloursOverride = none)
    (hall : ∀ n, (runLines host around prompting n s).1.aborted = false →
      (runLines host around prompting n s).1.coloursOverride = none) :
    ¬CrashesRedirected host around s'.workspace line := by
  induction h with
  | @here s s' line hread hne =>
    have hs' := hread ▸ s.alike_readLine.coloursOverride
    have hone := hall 1
    rw [runLines_line hread hne, runLines, ite_self] at hone
    exact (coloursOverride_runLine_iff host s' around (hs'.trans hs) line).mp hone
  | @blank s s' _ _ hread _ ih =>
    have hs' := hread ▸ s.alike_readLine.coloursOverride
    refine ih (hs'.trans hs) fun n => ?_
    rw [← runLines_blank hread]
    exact hall (n + 1)
  | later hread hne hgoes _ ih =>
    have hnext (n : Nat) := hall (n + 1)
    simp only [runLines_line hread hne, hgoes, Bool.false_eq_true, if_false] at hnext
    exact ih (hnext 0 (aborted_of_isOver hgoes)) hnext

/-- Where no line crashes on its way to a file, nothing is said of colours after any of them. -/
theorem coloursOverride_runLines (hs : s.coloursOverride = none)
    (hall : ∀ s' line, Reads host around s s' line →
      ¬CrashesRedirected host around s'.workspace line) (n : Nat)
    (hgoes : (runLines host around prompting n s).1.aborted = false) :
    (runLines host around prompting n s).1.coloursOverride = none := by
  induction n generalizing s with
  | zero => exact hs
  | succ n ih =>
    have hs' := s.alike_readLine.coloursOverride.trans hs
    rcases runLines_succ_cases host around prompting n s with
      hstop | ⟨s', hread, hblank⟩ | ⟨line, s', hread, hne, hrun⟩
    · rwa [hstop]
    · rw [hread] at hs'
      rw [hblank] at hgoes ⊢
      exact ih hs' (fun s'' later h => hall s'' later (.blank hread h)) hgoes
    · rw [hread] at hs'
      have hline := (coloursOverride_runLine_iff host s' around hs' line).mpr
        (hall s' line (.here hread hne))
      rw [hrun] at hgoes ⊢
      split at hgoes
      case isTrue hover =>
        rw [if_pos hover]
        exact hline hgoes
      case isFalse hover =>
        rw [if_neg hover]
        rw [Bool.not_eq_true] at hover
        exact ih (hline (aborted_of_isOver hover))
          (fun s'' later h => hall s'' later (.later hread hne hover h)) hgoes

/-- Along the lines of a session, as long as the shell outlives them, nothing is said of colours
from line to line exactly if none of them crashes with its message on the way to a file. -/
theorem coloursOverride_runLines_iff (hs : s.coloursOverride = none) :
    (∀ n, (runLines host around prompting n s).1.aborted = false →
        (runLines host around prompting n s).1.coloursOverride = none) ↔
      ∀ s' line, Reads host around s s' line →
        ¬CrashesRedirected host around s'.workspace line :=
  ⟨fun hall _ _ h => h.not_crashesRedirected hs hall,
    fun hall n hgoes => coloursOverride_runLines hs hall n hgoes⟩

end RunLines

/-- A line that shows more of a file than any memory has room for, in another file. -/
def crashingLine : Text :=
  "tail -n 18446744073709551615 f > g"

/-- A session that has this line to read. -/
def beforeCrash : Session :=
  { withOneFile 0o644 with input := { held := Text.encode (crashingLine ++ ['\n']) } }

theorem trim_crashingLine : Text.trim (Text.withoutBackspaces crashingLine) = crashingLine := by
  rw [Text.withoutBackspaces_eq_self (by decide)]
  decide

theorem readLine_beforeCrash : beforeCrash.readLine = (.line crashingLine, withOneFile 0o644) := by
  have hread : beforeCrash.input.readLine = (.line (Text.dropReturn crashingLine), {}) :=
    Input.readLine_of_held List.flatMap_append (by decide)
  have hreturn : Text.dropReturn crashingLine = crashingLine := by decide
  rw [readLine, hread]
  dsimp only
  rw [hreturn, trim_crashingLine]
  rfl

theorem crashesRedirected_crashingLine :
    CrashesRedirected noPrograms bareSurroundings (withOneFile 0o644).workspace crashingLine :=
  ⟨by decide, { name := "tail".toList, arguments := beyondMemory }, { output := some ['g'] },
    ['g'], by decide, rfl, asksTooMuch_beyondMemory⟩

theorem coloursOverride_runLines_beforeCrash :
    beforeCrash.coloursOverride = none ∧
      ((∀ n, (runLines noPrograms bareSurroundings false n beforeCrash).1.aborted = false →
          (runLines noPrograms bareSurroundings false n beforeCrash).1.coloursOverride = none) ↔
        ∀ s' line, Reads noPrograms bareSurroundings beforeCrash s' line →
          ¬CrashesRedirected noPrograms bareSurroundings s'.workspace line) ∧
      Reads noPrograms bareSurroundings beforeCrash (withOneFile 0o644) crashingLine ∧
      CrashesRedirected noPrograms bareSurroundings (withOneFile 0o644).workspace crashingLine :=
  ⟨rfl, coloursOverride_runLines_iff rfl, .here readLine_beforeCrash (by decide),
    crashesRedirected_crashingLine⟩

/-- Colours stay off after a line that crashes with its message on the way to a file. -/
theorem coloursOverride_afterCrash :
    beforeCrash.coloursOverride = none ∧
      (runLines noPrograms bareSurroundings false 1 beforeCrash).1.aborted = false ∧
      (runLines noPrograms bareSurroundings false 1 beforeCrash).1.coloursOverride ≠ none := by
  have hone : (runLines noPrograms bareSurroundings false 1 beforeCrash).1 =
      (runLine noPrograms bareSurroundings (withOneFile 0o644) crashingLine).1 := by
    rw [runLines_line readLine_beforeCrash (by decide), runLines, ite_self]
  have hstays : ¬((runLine noPrograms bareSurroundings (withOneFile 0o644) crashingLine).1.aborted =
      false → (runLine noPrograms bareSurroundings (withOneFile 0o644)
        crashingLine).1.coloursOverride = none) := fun h =>
    (coloursOverride_runLine_iff _ _ _ rfl _).mp h crashesRedirected_crashingLine
  rw [hone]
  exact ⟨rfl, Classical.not_imp.mp hstays⟩

end LineShell.Session

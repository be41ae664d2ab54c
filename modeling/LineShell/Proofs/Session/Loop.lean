import LineShell.Proofs.Session.Frame
import LineShell.Session.Loop

/-! What one turn of the loop of a session can do. -/

namespace LineShell.Session

theorem alike_readLine (s : Session) : Alike s s.readLine.2 := by
  rw [readLine]
  split <;> exact ⟨rfl, rfl, rfl, rfl⟩

section

variable {host : Program.Host} {around : Surroundings} {prompting : Bool} {s s' : Session}
  {line : Text}

theorem runLines_blank (hread : s.readLine = (.line [], s')) (n : Nat) :
    (runLines host around prompting (n + 1) s).1 = (runLines host around prompting n s').1 := by
  rw [runLines, hread]
  rfl

theorem runLines_line (hread : s.readLine = (.line line, s')) (hne : line ≠ []) (n : Nat) :
    (runLines host around prompting (n + 1) s).1 =
      if (runLine host around s' line).1.isOver then (runLine host around s' line).1
      else (runLines host around prompting n (runLine host around s' line).1).1 := by
  rw [runLines, hread]
  simp only [List.isEmpty_iff, hne, if_false]
  split <;> rfl

end

/-- A turn finds no line, passes over a blank one, or carries one out. -/
theorem runLines_succ_cases (host : Program.Host) (around : Surroundings) (prompting : Bool)
    (n : Nat) (s : Session) :
    (runLines host around prompting (n + 1) s).1 = s.readLine.2 ∨
      (∃ s', s.readLine = (.line [], s') ∧
        (runLines host around prompting (n + 1) s).1 = (runLines host around prompting n s').1) ∨
      ∃ line s', s.readLine = (.line line, s') ∧ line ≠ [] ∧
        (runLines host around prompting (n + 1) s).1 =
          if (runLine host around s' line).1.isOver then (runLine host around s' line).1
          else (runLines host around prompting n (runLine host around s' line).1).1 := by
  cases hread : s.readLine with | mk found s' =>
  cases found with
  | nothing | garbled => exact .inl (by rw [runLines, hread])
  | line line =>
    by_cases hne : line = []
    · subst hne
      exact .inr (.inl ⟨s', rfl, runLines_blank hread n⟩)
    · exact .inr (.inr ⟨line, s', rfl, hne, runLines_line hread hne n⟩)

end LineShell.Session

import LineShell.Program.Host
import Mathlib.Tactic.ByContra

/-! Which programs a run starts. The system is a parameter of a run, so that a start shows in what
comes of the run: that depends on how the system answers the start. -/

namespace LineShell.Program

variable {α : Type} {run : Host → α} {t t' : FileTree} {l l' : Launch}

/-- Two systems that answer all starts alike but one are told apart by the run. -/
def Starts (run : Host → α) (t : FileTree) (l : Launch) : Prop :=
  ∃ host host' : Host, (∀ t' l', ¬(t' = t ∧ l' = l) → host t' l' = host' t' l') ∧
    run host ≠ run host'

/-- What comes of the run is settled by the answer to one start. -/
def AsksOnly (run : Host → α) (t : FileTree) (l : Launch) : Prop :=
  ∀ host host' : Host, host t l = host' t l → run host = run host'

theorem not_starts_of_forall_eq (h : ∀ host host', run host = run host') : ¬Starts run t l := by
  rintro ⟨host, host', -, hne⟩
  exact hne (h host host')

open Classical in
/-- A system that answers one start in some way, and all others like another system. -/
noncomputable def Host.answering (host : Host) (t : FileTree) (l : Launch)
    (answer : Except IoError Report) : Host :=
  fun t' l' => if t' = t ∧ l' = l then answer else host t' l'

theorem Host.answering_self (host : Host) (t : FileTree) (l : Launch)
    (answer : Except IoError Report) : host.answering t l answer t l = answer :=
  if_pos ⟨rfl, rfl⟩

theorem starts_of_answering {host : Host} {answer : Except IoError Report}
    (h : run (host.answering t l answer) ≠ run host) : Starts run t l :=
  ⟨_, host, fun _ _ hother => if_neg hother, h⟩

/-- A run that depends on one start makes that one and no other. -/
theorem AsksOnly.starts_iff (h : AsksOnly run t l) {host host' : Host}
    (hne : run host ≠ run host') : Starts run t' l' ↔ t' = t ∧ l' = l := by
  constructor
  · rintro ⟨first, second, hagree, hdiffer⟩
    by_contra hother
    exact hdiffer (h first second (hagree t l fun heq => hother ⟨heq.1.symm, heq.2.symm⟩))
  · rintro ⟨rfl, rfl⟩
    have hanswering : run (host'.answering t' l' (host t' l')) = run host :=
      h _ _ (host'.answering_self t' l' _)
    exact starts_of_answering (hanswering ▸ hne)

end LineShell.Program

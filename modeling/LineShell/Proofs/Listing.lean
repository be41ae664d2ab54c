import LineShell.Listing.Directory
import LineShell.Proofs.Answer

/-! When the details of a listing can be told: the blocks of its entries are counted together, and
each entry has a date. -/

namespace LineShell.Listing

/-- A time that a date can be told of. -/
def Dated (t : Time) : Prop :=
  firstSecond ≤ t ∧ t ≤ lastSecond

/-- Entries whose details can all be told: their blocks can be counted, and each has a date. -/
def Tellable (t : FileTree) (entries : List (Name × Node)) : Prop :=
  Text.total (entries.map fun e => blocks (details t e.2).size) < blockLimit ∧
    ∀ e ∈ entries, Dated (details t e.2).changed

variable (zone : Time → Int)

theorem exists_line_eq_ok_iff (d : Details) (name : Text) :
    (∃ line, d.line zone name = .ok line) ↔ Dated d.changed := by
  have hdated : Dated d.changed ↔ ¬(d.changed < firstSecond ∨ lastSecond < d.changed) := by
    rw [not_or, Int.not_lt, Int.not_lt]
    rfl
  rw [hdated, Details.line, date]
  split
  case isTrue h => exact iff_of_false (by rintro ⟨_, ⟨⟩⟩) (not_not_intro h)
  case isFalse h => exact iff_of_true ⟨_, rfl⟩ h

/-- The details of a first entry are told, then those of the others. -/
theorem exists_detailLines_cons_iff (on : Bool) (t : FileTree) (taken : Nat) (name : Name)
    (n : Node) (entries : List (Name × Node)) :
    (∃ r, detailLines on zone t taken ((name, n) :: entries) = .ok r) ↔
      taken + blocks (details t n).size < blockLimit ∧ Dated (details t n).changed ∧
        ∃ r, detailLines on zone t (taken + blocks (details t n).size) entries = .ok r := by
  have hline := exists_line_eq_ok_iff zone (details t n) ((label name n).shown on)
  rw [detailLines, Except.exists_bind_eq_ok_iff, Count.more]
  split
  case isFalse h => exact iff_of_false (by rintro ⟨_, ⟨⟩, -⟩) fun hr => h hr.1
  case isTrue h =>
    simp only [Except.exists_bind_eq_ok_iff, Except.ok.injEq, exists_eq_left']
    constructor
    · rintro ⟨line, hl, r, hr, -⟩
      exact ⟨h, hline.mp ⟨line, hl⟩, r, hr⟩
    · rintro ⟨-, hdated, r, hr⟩
      obtain ⟨line, hl⟩ := hline.mpr hdated
      exact ⟨line, hl, r, hr, _, rfl⟩

theorem exists_detailLines_eq_ok_iff (on : Bool) (t : FileTree) {taken : Nat}
    (htaken : taken < blockLimit) (entries : List (Name × Node)) :
    (∃ r, detailLines on zone t taken entries = .ok r) ↔
      taken + Text.total (entries.map fun e => blocks (details t e.2).size) < blockLimit ∧
        ∀ e ∈ entries, Dated (details t e.2).changed := by
  induction entries generalizing taken with
  | nil => exact iff_of_true ⟨_, rfl⟩ ⟨htaken, by simp⟩
  | cons e entries ih =>
    obtain ⟨name, n⟩ := e
    rw [exists_detailLines_cons_iff, List.map_cons, Text.total, List.forall_mem_cons,
      ← Nat.add_assoc]
    by_cases hmore : taken + blocks (details t n).size < blockLimit
    · rw [ih hmore, and_iff_right hmore]
      exact and_left_comm
    · refine iff_of_false (fun h => hmore h.1) fun h => hmore ?_
      have := h.1
      dsimp only at this
      omega

theorem exists_withDetails_eq_ok_iff (on : Bool) (t : FileTree) (entries : List (Name × Node)) :
    (∃ shown, withDetails on zone t entries = .ok shown) ↔ Tellable t entries := by
  rw [Tellable, ← Nat.zero_add (Text.total _), ← exists_detailLines_eq_ok_iff zone on t (by decide),
    withDetails, Except.exists_bind_eq_ok_iff]
  exact exists_congr fun r => and_iff_left ⟨_, rfl⟩

end LineShell.Listing

import LineShell.Text.Blank
import Mathlib.Data.List.DropRight

/-! Blanks at the two ends of a text. They may be taken off in either order, and once is enough. -/

namespace LineShell.Text

theorem trimEnd_cons {c : Char} (hc : isBlank c = false) (t : Text) :
    trimEnd (c :: t) = c :: trimEnd t := by
  rw [trimEnd, trimEnd, List.reverse_cons, List.dropWhile_append]
  split
  case isTrue h => simp [hc, List.isEmpty_iff.mp h]
  case isFalse => simp

theorem trim_cons {c : Char} (hc : isBlank c = false) (t : Text) :
    trim (c :: t) = c :: trimEnd t := by
  rw [trim, List.dropWhile_cons_of_neg (by simp [hc]), trimEnd_cons hc]

/-- A blank at the front stays where something is left behind it. -/
theorem trimEnd_cons_blank {c : Char} (hc : isBlank c = true) (t : Text) :
    trimEnd (c :: t) = if trimEnd t = [] then [] else c :: trimEnd t := by
  rw [trimEnd, trimEnd, List.reverse_cons, List.dropWhile_append]
  split
  case isTrue h => simp [hc, List.isEmpty_iff.mp h]
  case isFalse h =>
    rw [if_neg (by simpa using h)]
    simp

/-- A text is what is left of it without the blanks at its end, and these blanks. -/
theorem exists_trimEnd (t : Text) :
    ∃ gap, t = trimEnd t ++ gap ∧ ∀ c ∈ gap, isBlank c = true := by
  refine ⟨(t.reverse.takeWhile isBlank).reverse, ?_, fun c hc => ?_⟩
  · rw [trimEnd, ← List.reverse_append, List.takeWhile_append_dropWhile, List.reverse_reverse]
  · exact List.all_eq_true.mp List.all_takeWhile c (List.mem_reverse.mp hc)

theorem trimEnd_prefix_self (t : Text) : trimEnd t <+: t := by
  obtain ⟨gap, hgap, -⟩ := exists_trimEnd t
  exact ⟨gap, hgap.symm⟩

theorem trimEnd_append (a b : Text) :
    trimEnd (a ++ b) = if trimEnd b = [] then trimEnd a else a ++ trimEnd b := by
  rw [trimEnd, trimEnd, trimEnd, List.reverse_append, List.dropWhile_append]
  split
  case isTrue h => rw [if_pos (by simpa using h)]
  case isFalse h =>
    rw [if_neg (by simpa using h)]
    simp

/-- What stands at the end of a text that ends in no blank ends in none either. -/
theorem trimEnd_eq_self_of_append {a b : Text} (h : trimEnd (a ++ b) = a ++ b) :
    trimEnd b = b := by
  rw [trimEnd_append] at h
  split at h
  case isTrue =>
    have hlength := (trimEnd_prefix_self a).length_le
    rw [h, List.length_append] at hlength
    rw [List.eq_nil_of_length_eq_zero (show b.length = 0 by omega)]
    rfl
  case isFalse => exact List.append_cancel_left h

theorem trim_eq_dropWhile (t : Text) : trim t = (trimEnd t).dropWhile isBlank := by
  induction t with
  | nil => rfl
  | cons c t ih =>
    by_cases hc : isBlank c = true
    · rw [trim, List.dropWhile_cons_of_pos hc, ← trim, ih, trimEnd_cons_blank hc]
      split
      case isTrue h => rw [h]
      case isFalse => rw [List.dropWhile_cons_of_pos hc]
    · rw [Bool.not_eq_true] at hc
      rw [trim_cons hc, trimEnd_cons hc, List.dropWhile_cons_of_neg (by simp [hc])]

theorem trimEnd_trimEnd (t : Text) : trimEnd (trimEnd t) = trimEnd t :=
  List.rdropWhile_idempotent isBlank t

theorem trim_trim (t : Text) : trim (trim t) = trim t := by
  have hfront : (trim t).dropWhile isBlank = trim t := by
    rw [trim_eq_dropWhile, List.dropWhile_idempotent]
  rw [trim, hfront, trim]
  exact trimEnd_trimEnd _

theorem isBlank_of_getLast?_trimEnd {t : Text} {c : Char} (h : (trimEnd t).getLast? = some c) :
    isBlank c = false := by
  rw [trimEnd, List.getLast?_reverse] at h
  simpa [h] using List.head?_dropWhile_not isBlank t.reverse

theorem isBlank_of_head?_trim {t : Text} {c : Char} (h : (trim t).head? = some c) :
    isBlank c = false := by
  rw [trim_eq_dropWhile] at h
  simpa [h] using List.head?_dropWhile_not isBlank (trimEnd t)

theorem mem_trim {c : Char} (hc : isBlank c = false) {t : Text} (h : c ∈ t) : c ∈ trim t := by
  obtain ⟨gap, hgap, hblank⟩ := exists_trimEnd t
  have hend : c ∈ trimEnd t := by
    rw [hgap, List.mem_append] at h
    exact h.resolve_right fun hmem => by simp [hblank c hmem] at hc
  rw [← List.takeWhile_append_dropWhile (p := isBlank) (l := trimEnd t), List.mem_append] at hend
  rw [trim_eq_dropWhile]
  refine hend.resolve_left fun hmem => ?_
  have := List.mem_takeWhile_imp hmem
  simp [hc] at this

end LineShell.Text

import LineShell.Text.Basic
import Mathlib.Data.List.Basic

/-! The order of sequences by their first difference is a linear one, and a sorted list of texts
that are all different increases strictly. -/

namespace LineShell.Text

variable {α : Type} {number : α → Nat} {a b c : List α}

theorem leBy_total : leBy number a b = true ∨ leBy number b a = true := by
  induction a generalizing b with
  | nil => exact .inl rfl
  | cons x a ih =>
    cases b with
    | nil => exact .inr rfl
    | cons y b =>
      simp only [leBy, Bool.or_eq_true, Bool.and_eq_true, decide_eq_true_eq]
      rcases Nat.lt_trichotomy (number x) (number y) with hxy | hxy | hxy
      · exact .inl (.inl hxy)
      · exact (ih (b := b)).imp (fun h => .inr ⟨hxy, h⟩) fun h => .inr ⟨hxy.symm, h⟩
      · exact .inr (.inl hxy)

theorem leBy_trans (hab : leBy number a b = true) (hbc : leBy number b c = true) :
    leBy number a c = true := by
  induction a generalizing b c with
  | nil => rfl
  | cons x a ih =>
    cases b with
    | nil => cases hab
    | cons y b =>
      cases c with
      | nil => cases hbc
      | cons z c =>
        simp only [leBy, Bool.or_eq_true, Bool.and_eq_true, decide_eq_true_eq] at hab hbc ⊢
        rcases hab with hab | ⟨hxy, hab⟩ <;> rcases hbc with hbc | ⟨hyz, hbc⟩
        · exact .inl (Nat.lt_trans hab hbc)
        · exact .inl (hyz ▸ hab)
        · exact .inl (hxy ▸ hbc)
        · exact .inr ⟨hxy.trans hyz, ih hab hbc⟩

theorem leBy_antisymm (hnumber : Function.Injective number) (hab : leBy number a b = true)
    (hba : leBy number b a = true) : a = b := by
  induction a generalizing b with
  | nil =>
    cases b with
    | nil => rfl
    | cons y b => cases hba
  | cons x a ih =>
    cases b with
    | nil => cases hab
    | cons y b =>
      simp only [leBy, Bool.or_eq_true, Bool.and_eq_true, decide_eq_true_eq] at hab hba
      rcases hab with hxy | ⟨hxy, hab⟩ <;> rcases hba with hyx | ⟨hyx, hba⟩
      · omega
      · omega
      · omega
      · rw [hnumber hxy, ih hab hba]

variable {s t : Text}

/-- The order of texts is that of their characters. -/
theorem lt_of_le_of_ne (h : le s t = true) (hne : s ≠ t) : s < t := by
  induction s generalizing t with
  | nil =>
    cases t with
    | nil => exact absurd rfl hne
    | cons d t => exact List.nil_lt_cons d t
  | cons c s ih =>
    cases t with
    | nil => cases h
    | cons d t =>
      simp only [le, leBy, Bool.or_eq_true, Bool.and_eq_true, decide_eq_true_eq] at h
      rw [List.cons_lt_cons_iff]
      rcases h with hlt | ⟨heq, hrest⟩
      · exact .inl hlt
      · obtain rfl := Char.toNat_inj.mp heq
        exact .inr ⟨rfl, ih hrest fun hst => hne (hst ▸ rfl)⟩

theorem pairwise_le_mergeSort (texts : List Text) :
    (texts.mergeSort le).Pairwise (le · · = true) :=
  List.pairwise_mergeSort (fun _ _ _ => leBy_trans)
    (fun _ _ => by rw [Bool.or_eq_true]; exact leBy_total) texts

theorem increasing_mergeSort {texts : List Text} (h : texts.Nodup) :
    (texts.mergeSort le).Pairwise (· < ·) := by
  have hnodup : (texts.mergeSort le).Pairwise (· ≠ ·) :=
    (List.mergeSort_perm texts le).nodup_iff.mpr h
  exact (pairwise_le_mergeSort texts).imp₂ (fun _ _ hle hne => lt_of_le_of_ne hle hne) hnodup

end LineShell.Text

import LineShell.Text.Blank
import LineShell.Text.Lowercase
import Mathlib.Data.List.Basic

/-! A text in lowercase stays as it is: no letter that another one becomes is changed again. Blanks
and signs stay in any text. -/

namespace LineShell.Text

/-- A character that is its own lowercase, wherever it stands. -/
def IsSmall (c : Char) : Prop :=
  c ≠ capitalSigma ∧ lowerChar c = [c]

instance (c : Char) : Decidable (IsSmall c) :=
  inferInstanceAs (Decidable (_ ∧ _))

namespace CaseRun

/-- The lowercase of a character of the run. -/
def small (run : CaseRun) (n : Nat) : Nat :=
  Int.toNat (n + run.shift)

/-- Whether all lowercases of a run are beside another run: outside its bounds, or between the
characters that it holds. -/
def misses (run other : CaseRun) : Bool :=
  Nat.blt (run.small run.last) other.first || Nat.blt other.last (run.small run.first) ||
    (run.first = run.last || run.stride = 2) && other.stride = 2 &&
      (run.small run.first + other.first) % 2 = 1

/-- The one character whose lowercase is two characters, as a run. -/
def dotted : CaseRun :=
  ⟨0x130, 0x130, 1, 0⟩

theorem misses_caseRuns : (caseRuns.all fun run => (dotted :: caseRuns).all run.misses) = true := by
  decide +kernel

theorem small_nonneg : ∀ run ∈ caseRuns, 0 ≤ run.first + run.shift := by
  decide +kernel

variable {run other : CaseRun} {m n : Nat}

theorem lower?_eq_some_iff : run.lower? m = some n ↔
    (run.first ≤ m ∧ m ≤ run.last ∧ (m - run.first) % run.stride = 0) ∧ run.small m = n := by
  rw [lower?, small]
  split
  case isTrue h => rw [Option.some_inj, and_iff_right h]
  case isFalse h => exact iff_of_false nofun fun h' => h h'.1

theorem lower?_eq_none_of_misses (hnonneg : 0 ≤ run.first + run.shift)
    (hmisses : run.misses other = true) (hn : run.lower? m = some n) : other.lower? n = none := by
  obtain ⟨⟨hfirst, hlast, hstride⟩, rfl⟩ := lower?_eq_some_iff.mp hn
  rw [Option.eq_none_iff_forall_ne_some]
  intro k hk
  obtain ⟨⟨hfirst', hlast', hstride'⟩, -⟩ := lower?_eq_some_iff.mp hk
  simp only [misses, Bool.or_eq_true, Bool.and_eq_true, decide_eq_true_eq, Nat.blt_eq] at hmisses
  rw [small] at hfirst' hlast' hstride'
  rw [small, small] at hmisses
  rcases hmisses with (habove | hbelow) | ⟨⟨hsingle | hevery, hother⟩, hodd⟩
  · omega
  · omega
  · rw [hother] at hstride'
    omega
  · rw [hother] at hstride'
    rw [hevery] at hstride
    omega

end CaseRun

theorem lowerChar_of_isBlank {c : Char} (h : isBlank c = true) : lowerChar c = [c] := by
  have hblanks : ∀ n ∈ [0x9, 0xA, 0xB, 0xC, 0xD, 0x20, 0x85, 0xA0, 0x1680, 0x2000, 0x2001, 0x2002,
      0x2003, 0x2004, 0x2005, 0x2006, 0x2007, 0x2008, 0x2009, 0x200A, 0x2028, 0x2029, 0x202F,
      0x205F, 0x3000], lowerChar (Char.ofNat n) = [Char.ofNat n] := by
    decide
  rw [← Char.ofNat_toNat c]
  apply hblanks
  simp only [isBlank, Bool.or_eq_true, Bool.and_eq_true, decide_eq_true_eq] at h
  simp only [List.mem_cons, List.not_mem_nil, or_false]
  omega

section Small

variable {c d : Char} {t : Text}

theorem isSmall_of_isBlank (h : isBlank c = true) : IsSmall c := by
  refine ⟨?_, lowerChar_of_isBlank h⟩
  rintro rfl
  exact absurd h (by decide)

theorem isSmall_ascii : ((List.range 0x80).all fun n =>
    (lowerChar (Char.ofNat n)).all fun d => decide (IsSmall d)) = true := by
  decide +kernel

/-- What a run turns a character into is not changed again. -/
theorem isSmall_of_lower? {run : CaseRun} (hrun : run ∈ caseRuns) {m n : Nat}
    (hn : run.lower? m = some n) : IsSmall (Char.ofNat n) := by
  have hmisses : ∀ other ∈ CaseRun.dotted :: caseRuns, run.misses other = true := by
    have hall := List.all_eq_true.mp CaseRun.misses_caseRuns run hrun
    exact fun other hother => List.all_eq_true.mp hall other hother
  have hnone : ∀ other ∈ CaseRun.dotted :: caseRuns, other.lower? n = none := fun other hother =>
    CaseRun.lower?_eq_none_of_misses (CaseRun.small_nonneg run hrun) (hmisses other hother) hn
  rw [List.forall_mem_cons] at hnone
  by_cases hvalid : n.isValidChar
  case neg =>
    rw [Char.ofNat, dif_neg hvalid]
    decide
  have htoNat : (Char.ofNat n).toNat = n := by
    rw [Char.ofNat, dif_pos hvalid]
    rfl
  have hsigma : Char.ofNat n ≠ capitalSigma := by
    intro h
    have hn : n = 0x3A3 := by rw [← htoNat, h]; rfl
    have hrun : ⟨0x3A3, 0x3AB, 1, 32⟩ ∈ caseRuns := by decide
    exact absurd (hn ▸ hnone.2 _ hrun) (by decide)
  have hdotted : n ≠ 0x130 := by
    rintro rfl
    exact absurd hnone.1 (by decide)
  have hcapital : ¬(0x41 ≤ n ∧ n ≤ 0x5A) := by
    intro h
    have hrun : ⟨0x41, 0x5A, 1, 32⟩ ∈ caseRuns := by decide
    have hlower : CaseRun.lower? ⟨0x41, 0x5A, 1, 32⟩ n = some _ :=
      CaseRun.lower?_eq_some_iff.mpr ⟨⟨h.1, h.2, Nat.mod_one _⟩, rfl⟩
    rw [hnone.2 _ hrun] at hlower
    cases hlower
  refine ⟨hsigma, ?_⟩
  rw [lowerChar, htoNat, if_neg hdotted, List.findSome?_eq_none_iff.mpr hnone.2]
  split
  case isTrue =>
    rw [if_neg]
    rintro ⟨hA, hZ⟩
    exact hcapital ⟨htoNat ▸ hA, htoNat ▸ hZ⟩
  case isFalse => rfl

theorem isSmall_of_mem_lowerChar (hc : c ≠ capitalSigma) (hd : d ∈ lowerChar c) : IsSmall d := by
  by_cases hascii : c.toNat < 0x80
  · have hall := List.all_eq_true.mp isSmall_ascii c.toNat (List.mem_range.mpr hascii)
    rw [Char.ofNat_toNat] at hall
    exact of_decide_eq_true (List.all_eq_true.mp hall d hd)
  rw [lowerChar, if_neg hascii] at hd
  split at hd
  case isTrue =>
    have hpair : IsSmall 'i' ∧ IsSmall (Char.ofNat 0x307) := by decide +kernel
    rcases List.mem_pair.mp hd with rfl | rfl
    · exact hpair.1
    · exact hpair.2
  case isFalse hdotted =>
    split at hd
    case h_1 n hn =>
      obtain ⟨run, hrun, hlower⟩ := List.exists_of_findSome?_eq_some hn
      rw [List.mem_singleton] at hd
      exact hd ▸ isSmall_of_lower? hrun hlower
    case h_2 hnone =>
      rw [List.mem_singleton] at hd
      subst hd
      refine ⟨hc, ?_⟩
      rw [lowerChar, if_neg hascii, if_neg hdotted, hnone]

theorem isSmall_of_mem_lowerAfter {before : Text} (hd : d ∈ lowerAfter before t) : IsSmall d := by
  induction t generalizing before with
  | nil => cases hd
  | cons c t ih =>
    rw [lowerAfter, List.mem_append] at hd
    rcases hd with hd | hd
    · split at hd
      case isTrue =>
        rw [List.mem_singleton] at hd
        rw [hd]
        split <;> decide
      case isFalse hc => exact isSmall_of_mem_lowerChar hc hd
    · exact ih hd

theorem lowerAfter_cons (hsigma : c ≠ capitalSigma) (hc : lowerChar c = [c]) (before t : Text) :
    lowerAfter before (c :: t) = c :: lowerAfter (c :: before) t := by
  rw [lowerAfter, if_neg hsigma, hc]
  rfl

theorem lowerAfter_eq_self (h : ∀ c ∈ t, IsSmall c) (before : Text) : lowerAfter before t = t := by
  induction t generalizing before with
  | nil => rfl
  | cons c t ih =>
    rw [List.forall_mem_cons] at h
    rw [lowerAfter_cons h.1.1 h.1.2, ih h.2]

/-- Lowercase is not changed by being taken again. -/
theorem lower_lower (t : Text) : lower (lower t) = lower t :=
  lowerAfter_eq_self (fun _ => isSmall_of_mem_lowerAfter) []

/-- A character that stands for itself stays when a text is put in small letters. -/
theorem mem_lowerAfter (hsigma : c ≠ capitalSigma) (hc : lowerChar c = [c]) (h : c ∈ t)
    (before : Text) : c ∈ lowerAfter before t := by
  induction t generalizing before with
  | nil => cases h
  | cons d t ih =>
    rw [lowerAfter, List.mem_append]
    rcases List.mem_cons.mp h with rfl | hmem
    · refine .inl ?_
      rw [if_neg hsigma, hc]
      exact List.mem_singleton_self c
    · exact .inr (ih hmem _)

theorem IsSmall.mem_lower (h : IsSmall c) (hc : c ∈ t) : c ∈ lower t :=
  mem_lowerAfter h.1 h.2 hc []

/-- Small letters but the sigmas come each of one character, whatever stands around it. -/
theorem mem_lowerAfter_iff (hc : c ≠ smallSigma ∧ c ≠ finalSigma) (before : Text) :
    c ∈ lowerAfter before t ↔ ∃ d ∈ t, d ≠ capitalSigma ∧ c ∈ lowerChar d := by
  induction t generalizing before with
  | nil => simp [lowerAfter]
  | cons d t ih =>
    rw [lowerAfter, List.mem_append, ih, List.exists_mem_cons_iff]
    refine or_congr_left ?_
    split
    case isTrue hsigma =>
      refine iff_of_false ?_ fun h => h.1 hsigma
      split <;> simp [hc]
    case isFalse hsigma => simp [hsigma]

end Small

end LineShell.Text

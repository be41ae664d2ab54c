import LineShell.Text.Numeral
import Mathlib.Order.Basic

/-! Decimal integers of any size, and which of them are read: those that an integer of 64 bits can
be. Counts are read likewise, and have no minus sign. -/

namespace LineShell.Text

/-- A run of decimal digits that stands for a number. Zeros in front of it do not count. -/
structure IsDigits (t : Text) (n : Nat) : Prop where
  nonempty : t ≠ []
  digits : ∀ c ∈ t, c.isDigit = true
  value : Nat.ofDigitChars 10 t 0 = n

/-- A decimal integer of any size, with a sign in front of it or without one. -/
inductive IsInteger : Text → Int → Prop
  | unsigned {t : Text} {n : Nat} (h : IsDigits t n) : IsInteger t n
  | positive {t : Text} {n : Nat} (h : IsDigits t n) : IsInteger ('+' :: t) n
  | negative {t : Text} {n : Nat} (h : IsDigits t n) : IsInteger ('-' :: t) (-n)

/-- The integers of 64 bits, which are those from -2^63 to 2^63 - 1. -/
def FitsInteger (n : Int) : Prop :=
  -9223372036854775808 ≤ n ∧ n ≤ 9223372036854775807

instance (n : Int) : Decidable (FitsInteger n) := by
  unfold FitsInteger; infer_instance

/-- The counts of 64 bits, which are those below 2^64. -/
def FitsCount (n : Nat) : Prop :=
  n < 18446744073709551616

/-- A decimal count of 64 bits, with a plus sign in front of it or without one. -/
inductive IsCount : Text → Nat → Prop
  | unsigned {t : Text} {n : Nat} (h : IsDigits t n) (hfits : FitsCount n) : IsCount t n
  | positive {t : Text} {n : Nat} (h : IsDigits t n) (hfits : FitsCount n) : IsCount ('+' :: t) n

section

variable {t : Text} {n : Nat} {i j : Int}

theorem digits?_eq_some_iff : digits? t = some n ↔ IsDigits t n := by
  have hvalue : t.foldl (fun n c => n * 10 + (c.toNat - '0'.toNat)) 0 =
      Nat.ofDigitChars 10 t 0 := by
    rw [Nat.ofDigitChars_eq_foldl]
    simp only [Nat.mul_comm 10]
  rw [digits?, hvalue]
  constructor
  · intro h
    split at h
    case isTrue => cases h
    case isFalse hread =>
      simp only [Bool.or_eq_true, List.isEmpty_iff, Bool.not_eq_true', not_or,
        Bool.not_eq_false, List.all_eq_true] at hread
      exact ⟨hread.1, hread.2, Option.some.inj h⟩
  · rintro ⟨hne, hdigits, rfl⟩
    rw [if_neg]
    simpa [hne] using hdigits

theorem IsDigits.head_ne (h : IsDigits t n) {c : Char} (hc : c.isDigit = false) (rest : Text) :
    t ≠ c :: rest := by
  rintro rfl
  have hdigit := h.digits c List.mem_cons_self
  rw [hc] at hdigit
  cases hdigit

/-- Of a text with no sign in front only the digits count. -/
theorem IsInteger.isDigits (h : IsInteger t i) (hplus : ∀ rest, t ≠ '+' :: rest)
    (hminus : ∀ rest, t ≠ '-' :: rest) : ∃ n : Nat, IsDigits t n ∧ i = n := by
  cases h with
  | unsigned h => exact ⟨_, h, rfl⟩
  | @positive rest => exact absurd rfl (hplus rest)
  | @negative rest => exact absurd rfl (hminus rest)

/-- What is read is an integer, and one that fits. -/
theorem integer?_eq_some_iff : integer? t = some i ↔ IsInteger t i ∧ FitsInteger i := by
  have hfits : (decide (-9223372036854775808 ≤ i) && decide (i ≤ 9223372036854775807)) = true ↔
      FitsInteger i := by
    rw [Bool.and_eq_true, decide_eq_true_eq, decide_eq_true_eq, FitsInteger]
  unfold integer?
  rw [Option.filter_eq_some_iff, hfits]
  refine and_congr_left fun _ => ?_
  split
  case h_1 rest =>
    rw [Option.map_eq_some_iff]
    constructor
    · rintro ⟨n, hn, rfl⟩
      exact .positive (digits?_eq_some_iff.mp hn)
    · intro h
      cases h with
      | unsigned h => exact absurd rfl (h.head_ne rfl rest)
      | positive h => exact ⟨_, digits?_eq_some_iff.mpr h, rfl⟩
  case h_2 rest =>
    simp only [Option.map_eq_some_iff, Option.bind_eq_bind, Option.bind_eq_some_iff,
      Option.pure_def, Option.some.injEq]
    constructor
    · rintro ⟨_, ⟨n, hn, rfl⟩, rfl⟩
      exact .negative (digits?_eq_some_iff.mp hn)
    · intro h
      cases h with
      | unsigned h => exact absurd rfl (h.head_ne rfl rest)
      | negative h => exact ⟨_, ⟨_, digits?_eq_some_iff.mpr h, rfl⟩, rfl⟩
  case h_3 hplus hminus =>
    rw [Option.map_eq_some_iff]
    constructor
    · rintro ⟨n, hn, rfl⟩
      exact .unsigned (digits?_eq_some_iff.mp hn)
    · intro h
      obtain ⟨n, hn, rfl⟩ := h.isDigits hplus hminus
      exact ⟨n, digits?_eq_some_iff.mpr hn, rfl⟩

/-- A text is one integer at most. -/
theorem IsInteger.unique (h : IsInteger t i) (h' : IsInteger t j) : i = j := by
  cases h with
  | unsigned h =>
    obtain ⟨n, hn, rfl⟩ := h'.isDigits (h.head_ne rfl) (h.head_ne rfl)
    rw [← h.value, hn.value]
  | positive h =>
    cases h' with
    | unsigned h' => exact absurd rfl (h'.head_ne rfl _)
    | positive h' => rw [← h.value, h'.value]
  | negative h =>
    cases h' with
    | unsigned h' => exact absurd rfl (h'.head_ne rfl _)
    | negative h' => rw [← h.value, h'.value]

/-- What is read is a count, and every count is read. -/
theorem count?_eq_some_iff : count? t = some n ↔ IsCount t n := by
  have hfits : decide (n ≤ maxCount) = true ↔ FitsCount n := by
    rw [decide_eq_true_iff, maxCount, FitsCount]
    omega
  unfold count?
  rw [Option.filter_eq_some_iff, hfits]
  split
  case h_1 rest =>
    rw [digits?_eq_some_iff]
    constructor
    · rintro ⟨h, hn⟩
      exact .positive h hn
    · intro h
      cases h with
      | unsigned h => exact absurd rfl (h.head_ne rfl rest)
      | positive h hn => exact ⟨h, hn⟩
  case h_2 hplus =>
    rw [digits?_eq_some_iff]
    constructor
    · rintro ⟨h, hn⟩
      exact .unsigned h hn
    · intro h
      cases h with
      | unsigned h hn => exact ⟨h, hn⟩
      | @positive rest => exact absurd rfl (hplus rest)

theorem count?_eq_none_iff : count? t = none ↔ ∀ n, ¬IsCount t n := by
  simp only [Option.eq_none_iff_forall_ne_some, ne_eq, count?_eq_some_iff]

theorem isDigits_decimal (n : Nat) : IsDigits (decimal n) n where
  nonempty := Nat.toDigits_ne_nil
  digits _ hc := Nat.isDigit_of_mem_toDigits (by decide) (by decide) hc
  value := Nat.ofDigitChars_ten_toDigits

/-- A count that is written in decimal digits is read as that count. -/
theorem count?_decimal (hn : n ≤ maxCount) : count? (decimal n) = some n := by
  have hfits : FitsCount n := Nat.lt_of_le_of_lt hn (by decide)
  exact count?_eq_some_iff.mpr (.unsigned (isDigits_decimal n) hfits)

end

end LineShell.Text

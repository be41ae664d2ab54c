import LineShell.Proofs.Answer
import LineShell.Session.Columns

/-! When the columns of the terminal can be told. Where a program is asked for them, what it writes
may make a number beyond all counts. -/

namespace LineShell.Session

open Program

/-- The number that digits make behind another one, however large it is. -/
def numberFrom (n : Nat) (digits : Text.Bytes) : Nat :=
  digits.foldl (fun n b => n * 10 + (b.toNat - 48)) n

/-- The number that the digits among some bytes make. -/
def numberIn (bytes : Text.Bytes) : Nat :=
  numberFrom 0 (bytes.filter fun b => 48 ≤ b.toNat && b.toNat ≤ 57)

theorem le_numberFrom (n : Nat) (digits : Text.Bytes) : n ≤ numberFrom n digits := by
  induction digits generalizing n with
  | nil => exact Nat.le_refl n
  | cons b digits ih => exact Nat.le_trans (by omega) (ih (n * 10 + (b.toNat - 48)))

theorem pushDigit_eq_ok_iff {n digit m : Nat} :
    pushDigit n digit = .ok m ↔ n * 10 + digit < countLimit ∧ n * 10 + digit = m := by
  rw [pushDigit, Count.more]
  split
  case isTrue h => exact iff_of_false (by rintro ⟨⟩) (by omega)
  case isFalse =>
    split
    case isTrue h => rw [Except.ok.injEq, and_iff_right h]
    case isFalse h => exact iff_of_false (by rintro ⟨⟩) fun hm => h hm.1

theorem exists_foldlM_pushDigit_iff {n : Nat} (hn : n < countLimit) (digits : Text.Bytes) :
    (∃ m, digits.foldlM (fun n b => pushDigit n (b.toNat - 48)) n = .ok m) ↔
      numberFrom n digits < countLimit := by
  induction digits generalizing n with
  | nil => exact iff_of_true ⟨n, rfl⟩ hn
  | cons b digits ih =>
    have hnumber : numberFrom n (b :: digits) = numberFrom (n * 10 + (b.toNat - 48)) digits := rfl
    rw [List.foldlM_cons, Except.exists_bind_eq_ok_iff, hnumber]
    simp only [pushDigit_eq_ok_iff]
    constructor
    · rintro ⟨_, ⟨hlt, rfl⟩, hm⟩
      exact (ih hlt).mp hm
    · intro h
      have hlt := Nat.lt_of_le_of_lt (le_numberFrom _ digits) h
      exact ⟨_, ⟨hlt, rfl⟩, (ih hlt).mpr h⟩

/-- Digits can be counted as long as the number that they make is below the limit. -/
theorem exists_countIn_eq_ok_iff {bytes : Text.Bytes} :
    (∃ n, countIn bytes = .ok n) ↔ numberIn bytes < countLimit :=
  exists_foldlM_pushDigit_iff (by decide) _

/-- A number of columns or lines that is beyond all counts. -/
def Overcounts (answer : Except IoError Report) : Prop :=
  ∃ report, answer = .ok report ∧ countLimit ≤ numberIn report.out

/-- The files after a program, if it could be started. -/
def filesAfter (t : FileTree) : Except IoError Report → FileTree
  | .ok report => report.tree
  | .error _ => t

/-- A terminal whose columns are asked for, and whose columns or lines cannot be counted. -/
def Uncountable (host : Host) (around : Surroundings) (t : FileTree) : Prop :=
  around.columns = none ∧
    let columns := host t (measuring around "cols")
    (Overcounts columns ∨ Overcounts (host (filesAfter t columns) (measuring around "lines")))

theorem tree_ask (host : Host) (s : Session) (around : Surroundings) (what : Text) :
    (s.ask host around what).1.tree = filesAfter s.tree (host s.tree (measuring around what)) := by
  rw [ask]
  split
  case h_1 h => rw [h, filesAfter]
  case h_2 h => rw [h, filesAfter]

theorem exists_ask_eq_ok_iff (host : Host) (s : Session) (around : Surroundings) (what : Text) :
    (∃ n, (s.ask host around what).2 = .ok n) ↔
      ¬Overcounts (host s.tree (measuring around what)) := by
  rw [ask]
  split
  case h_1 h => exact iff_of_true ⟨none, rfl⟩ (by rw [h]; rintro ⟨_, ⟨⟩, -⟩)
  case h_2 report h =>
    have hover : Overcounts (.ok report) ↔ countLimit ≤ numberIn report.out := by
      simp [Overcounts]
    rw [h, hover, Nat.not_le, ← exists_countIn_eq_ok_iff]
    exact Except.exists_map_eq_ok_iff

/-- The columns of the terminal are known, unless they cannot be counted. -/
theorem exists_measure_eq_ok_iff (host : Host) (s : Session) (around : Surroundings) :
    (∃ n, (s.measure host around).2 = .ok n) ↔ ¬Uncountable host around s.tree := by
  have hcolumns := exists_ask_eq_ok_iff host s around "cols"
  have htree := tree_ask host s around "cols"
  rw [measure, Uncountable]
  split
  case h_1 n h => exact iff_of_true ⟨n, rfl⟩ (by rw [h]; rintro ⟨⟨⟩, -⟩)
  case h_2 h =>
    rw [h, eq_self, true_and, not_or]
    split
    case h_1 s' why hask =>
      rw [hask] at hcolumns
      refine iff_of_false (by rintro ⟨_, ⟨⟩⟩) fun hnot => ?_
      obtain ⟨_, ⟨⟩⟩ := hcolumns.mpr hnot.1
    case h_2 s' columns hask =>
      have hlines := exists_ask_eq_ok_iff host s' around "lines"
      rw [hask] at hcolumns htree
      rw [htree] at hlines
      rw [and_iff_right (hcolumns.mp ⟨columns, rfl⟩), ← hlines]
      split
      case h_1 s'' why hask =>
        rw [hask]
        exact iff_of_false (by rintro ⟨_, ⟨⟩⟩) (by rintro ⟨_, ⟨⟩⟩)
      case h_2 s'' lines hask =>
        rw [hask]
        exact iff_of_true ⟨_, rfl⟩ ⟨lines, rfl⟩

end LineShell.Session

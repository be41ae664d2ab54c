import LineShell.Text.Utf8
import Mathlib.Tactic.IntervalCases

/-! The bytes of a text are read as that text: the reader takes the bytes of each character to
their end and stands between two characters again. -/

namespace LineShell.Text

private theorem toNat_byte {n : Nat} (h : n < 256) : (UInt8.ofNat n).toNat = n :=
  UInt8.toNat_ofNat_of_lt' h

namespace Reader

/-- A reader between two characters. -/
def between (ps : List Piece) : Reader :=
  { pieces := ps }

theorem push_between (ps : List Piece) (b : UInt8) :
    (between ps).push b = (between ps).begin b := by
  simp [push, between, flush]

variable {ps : List Piece} {held : List UInt8} {value low high d : Nat}

/-- The last byte that a character needs. -/
theorem push_last (hd : d < 64) (hlow : low ≤ 0x80 + d) (hhigh : 0x80 + d ≤ high) :
    Reader.push { pieces := ps, held := held, value := value, owed := 1, low := low, high := high }
      (UInt8.ofNat (0x80 + d)) = between (.char (Char.ofNat (value * 64 + d)) :: ps) := by
  have hb := toNat_byte (n := 0x80 + d) (by omega)
  rw [push, hb, if_pos ⟨Nat.one_ne_zero, hlow, hhigh⟩, if_pos rfl, Nat.add_sub_cancel_left]
  rfl

/-- A byte that a character needs before its last one. -/
theorem push_more {k : Nat} (hd : d < 64) (hlow : low ≤ 0x80 + d) (hhigh : 0x80 + d ≤ high) :
    Reader.push
        { pieces := ps, held := held, value := value, owed := k + 2, low := low, high := high }
      (UInt8.ofNat (0x80 + d)) =
      { pieces := ps, held := UInt8.ofNat (0x80 + d) :: held, value := value * 64 + d,
        owed := k + 1, low := 0x80, high := 0xBF } := by
  have hb := toNat_byte (n := 0x80 + d) (by omega)
  rw [push, hb, if_pos ⟨Nat.succ_ne_zero _, hlow, hhigh⟩, if_neg (by simp), Nat.add_sub_cancel_left]
  rfl

private theorem begin_one (ps : List Piece) {n : Nat} (h : n < 0x80) :
    (between ps).begin (UInt8.ofNat n) = between (.char (Char.ofNat n) :: ps) := by
  have hb := toNat_byte (n := n) (by omega)
  simp [begin, hb, h, between]

private theorem begin_two (ps : List Piece) {h : Nat} (h₁ : 2 ≤ h) (h₂ : h < 32) :
    (between ps).begin (UInt8.ofNat (0xC0 + h)) =
      { pieces := ps, held := [UInt8.ofNat (0xC0 + h)], value := h, owed := 1, low := 0x80,
        high := 0xBF } := by
  interval_cases h <;> rfl

private theorem begin_three (ps : List Piece) {h : Nat} (hh : h < 16) :
    (between ps).begin (UInt8.ofNat (0xE0 + h)) =
      { pieces := ps, held := [UInt8.ofNat (0xE0 + h)], value := h, owed := 2,
        low := if h = 0 then 0xA0 else 0x80, high := if h = 0xD then 0x9F else 0xBF } := by
  interval_cases h <;> rfl

private theorem begin_four (ps : List Piece) {h : Nat} (hh : h < 5) :
    (between ps).begin (UInt8.ofNat (0xF0 + h)) =
      { pieces := ps, held := [UInt8.ofNat (0xF0 + h)], value := h, owed := 3,
        low := if h = 0 then 0x90 else 0x80, high := if h = 4 then 0x8F else 0xBF } := by
  interval_cases h <;> rfl

/-- The bytes of a character are taken in as that character. -/
theorem foldl_encodeChar (c : Char) (ps : List Piece) :
    (encodeChar c).foldl push (between ps) = between (.char c :: ps) := by
  have hvalid : c.toNat < 0xD800 ∨ 0xDFFF < c.toNat ∧ c.toNat < 0x110000 := c.valid
  have hc : Char.ofNat c.toNat = c := Char.ofNat_toNat c
  generalize hn : c.toNat = n at hvalid hc
  simp only [encodeChar, hn]
  split_ifs with h1 h2 h3
  · rw [List.foldl_cons, List.foldl_nil, push_between, begin_one ps h1, hc]
  · rw [List.foldl_cons, List.foldl_cons, List.foldl_nil, push_between,
      begin_two ps (by omega) (by omega), push_last (by omega) (by omega) (by omega)]
    rw [show n / 64 * 64 + n % 64 = n by omega, hc]
  · rw [List.foldl_cons, List.foldl_cons, List.foldl_cons, List.foldl_nil, push_between,
      begin_three ps (by omega), push_more (k := 0) (by omega) (by split_ifs <;> omega)
        (by split_ifs <;> omega), push_last (by omega) (by omega) (by omega)]
    rw [show (n / 4096 * 64 + n / 64 % 64) * 64 + n % 64 = n by omega, hc]
  · rw [List.foldl_cons, List.foldl_cons, List.foldl_cons, List.foldl_cons, List.foldl_nil,
      push_between, begin_four ps (by omega), push_more (k := 1) (by omega)
        (by split_ifs <;> omega) (by split_ifs <;> omega),
      push_more (k := 0) (by omega) (by omega) (by omega),
      push_last (by omega) (by omega) (by omega)]
    rw [show ((n / 262144 * 64 + n / 4096 % 64) * 64 + n / 64 % 64) * 64 + n % 64 = n by omega, hc]

theorem foldl_encode (t : Text) (ps : List Piece) :
    (encode t).foldl push (between ps) = between ((t.map .char).reverse ++ ps) := by
  induction t generalizing ps with
  | nil => rfl
  | cons c t ih =>
    rw [encode, List.flatMap_cons, List.foldl_append, foldl_encodeChar, ← encode, ih]
    simp

end Reader

/-- Reading the bytes of a text gives its characters, and no broken piece. -/
theorem decode_encode (t : Text) : decode (encode t) = t.map .char := by
  have h := Reader.foldl_encode t []
  rw [decode, show ({} : Reader) = Reader.between [] from rfl, h]
  simp [Reader.flush, Reader.between]

theorem lossy_encode (t : Text) : lossy (encode t) = t := by
  rw [lossy, decode_encode, shown, List.map_map]
  exact List.map_id t

end LineShell.Text

import LineShell.Proofs.Text.Utf8
import Mathlib.Data.List.Induction

/-! Bytes that are cut at line feeds. A line feed is no part of another character, so the reader
gives up the character that it is in and goes on as at the beginning; and no character but a line
feed is shown as one. -/

namespace LineShell.Text

section Cut

variable {α β : Type} [DecidableEq α] [DecidableEq β]

/-- A sequence without the separator, or what stands in front of the first one and the rest. -/
theorem cut_induction {motive : List α → Prop} (separator : α)
    (whole : ∀ a, separator ∉ a → motive a)
    (cut : ∀ a b, separator ∉ a → motive b → motive (a ++ separator :: b)) (items : List α) :
    motive items := by
  by_cases hmem : separator ∈ items
  · obtain ⟨a, b, rfl, ha⟩ := List.eq_append_cons_of_mem hmem
    have : b.length < (a ++ separator :: b).length := by rw [List.length_append]; simp; omega
    exact cut a b ha (cut_induction separator whole cut b)
  · exact whole items hmem
termination_by items.length

theorem splitOn_cut {separator : α} {a : List α} (ha : separator ∉ a) (b : List α) :
    (a ++ separator :: b).splitOn separator = a :: b.splitOn separator := by
  rw [List.splitOn_append_cons_self, List.splitOn_eq_singleton ha]
  rfl

/-- Sequences are cut in one way only. -/
theorem cut_inj {separator : α} {a a' b b' : List α} (ha : separator ∉ a) (ha' : separator ∉ a')
    (h : a ++ separator :: b = a' ++ separator :: b') : a = a' ∧ b = b' := by
  have hcut := congrArg (List.splitOn separator) h
  rw [splitOn_cut ha, splitOn_cut ha'] at hcut
  obtain rfl := (List.cons.inj hcut).1
  exact ⟨rfl, (List.cons.inj (List.append_cancel_left h)).2⟩

theorem length_splitOn (separator : α) (items : List α) :
    (items.splitOn separator).length = items.count separator + 1 := by
  induction items using cut_induction separator with
  | whole a ha => rw [List.splitOn_eq_singleton ha, List.count_eq_zero_of_not_mem ha]; rfl
  | cut a b ha ih =>
    rw [splitOn_cut ha, List.length_cons, ih, List.count_append, List.count_eq_zero_of_not_mem ha,
      List.count_cons_self, Nat.zero_add]

/-- The last piece is empty where there is nothing behind the last separator. -/
theorem getLast?_splitOn_eq_nil_iff (separator : α) (items : List α) :
    (items.splitOn separator).getLast? = some [] ↔
      items = [] ∨ items.getLast? = some separator := by
  induction items using cut_induction separator with
  | whole a ha =>
    have hlast : a.getLast? ≠ some separator := fun h => ha (List.mem_of_getLast? h)
    simp [List.splitOn_eq_singleton ha, hlast]
  | cut a b ha ih =>
    rw [splitOn_cut ha, List.getLast?_cons_of_ne_nil (List.splitOn_ne_nil _ _), ih]
    cases b with
    | nil => simp
    | cons c b => simp [List.getLast?_append, List.getLast?_cons_cons]

end Cut

theorem ofNat_ne_lineFeed {n : Nat} (hn : n ≠ 10) : Char.ofNat n ≠ '\n' := by
  intro h
  by_cases hvalid : n.isValidChar
  · rw [Char.ofNat, dif_pos hvalid] at h
    exact hn (congrArg Char.toNat h)
  · rw [Char.ofNat, dif_neg hvalid] at h
    exact absurd (congrArg Char.toNat h) (by decide)

private theorem replacement_ne_lineFeed : replacement ≠ '\n' := by
  decide

namespace Reader

/-- A character in progress takes no ASCII byte, and comes to none. -/
def Multibyte (r : Reader) : Prop :=
  r.owed ≠ 0 → 0x80 ≤ r.low ∧ 0x80 ≤ (r.value * 64 + (r.low - 0x80)) * 64 ^ (r.owed - 1)

/-- The reader with other pieces in front of its own. -/
def behind (ps : List Piece) (r : Reader) : Reader :=
  { r with pieces := r.pieces ++ ps }

/-- A byte that can begin a character is a piece by itself, or the first of several bytes. -/
theorem begin_cases (r : Reader) (b : UInt8) :
    (∃ p : Piece, (b ≠ 10 → p.shown ≠ '\n') ∧ r.begin b = { pieces := p :: r.pieces }) ∨
      ∃ value owed low high, 0x80 ≤ low ∧
        0x80 ≤ (value * 64 + (low - 0x80)) * 64 ^ (owed - 1) ∧
        r.begin b = { pieces := r.pieces, held := [b], value, owed, low, high } := by
  have hchar : b ≠ 10 → (Piece.char (Char.ofNat b.toNat)).shown ≠ '\n' := fun hb =>
    ofNat_ne_lineFeed fun h => hb (UInt8.toNat.inj h)
  have hbroken : b ≠ 10 → (Piece.broken [b]).shown ≠ '\n' := fun _ => replacement_ne_lineFeed
  obtain ⟨r', hbegin⟩ : ∃ r', r.begin b = r' := ⟨_, rfl⟩
  rw [hbegin]
  rw [begin] at hbegin
  generalize b.toNat = n at hchar hbegin
  dsimp only at hbegin
  split_ifs at hbegin <;> subst hbegin
  case pos => exact .inl ⟨_, hchar, rfl⟩
  case pos | neg => exact .inl ⟨_, hbroken, rfl⟩
  all_goals
    exact .inr ⟨_, _, _, _, by omega, by dsimp only [Nat.reduceSub, Nat.reducePow]; omega, rfl⟩

theorem multibyte_begin (r : Reader) (b : UInt8) : (r.begin b).Multibyte := by
  rcases r.begin_cases b with ⟨p, -, hbegin⟩ | ⟨_, _, _, _, hlow, hvalue, hbegin⟩
  · rw [hbegin]
    exact fun howed => absurd rfl howed
  · rw [hbegin]
    exact fun _ => ⟨hlow, hvalue⟩

theorem multibyte_push {r : Reader} (h : r.Multibyte) (b : UInt8) : (r.push b).Multibyte := by
  rw [push]
  dsimp only
  split_ifs with hnext hlast
  · intro howed
    exact absurd rfl howed
  · intro _
    obtain ⟨howed, hlow, -⟩ := hnext
    obtain ⟨k, hk⟩ : ∃ k, r.owed = k + 2 := ⟨r.owed - 2, by omega⟩
    obtain ⟨hascii, hvalue⟩ := h howed
    refine ⟨Nat.le_refl _, hvalue.trans ?_⟩
    rw [hk]
    simp only [Nat.sub_self, Nat.add_zero, Nat.add_one_sub_one]
    rw [pow_succ', ← Nat.mul_assoc]
    exact Nat.mul_le_mul_right _ (Nat.mul_le_mul_right _ (by omega))
  · exact multibyte_begin _ b

/-- A line feed ends the character that the reader is in. -/
theorem push_lineFeed {r : Reader} (h : r.Multibyte) :
    r.push 10 = between (.char '\n' :: r.flush.pieces) := by
  have hnext : ¬ (r.owed ≠ 0 ∧ r.low ≤ (10 : UInt8).toNat ∧ (10 : UInt8).toNat ≤ r.high) := by
    rintro ⟨howed, hlow, -⟩
    exact absurd ((h howed).1.trans hlow) (by decide)
  rw [push, if_neg hnext]
  rfl

theorem behind_flush (ps : List Piece) (r : Reader) :
    (r.behind ps).flush = r.flush.behind ps := by
  rw [flush, flush, apply_ite (behind ps)]
  rfl

theorem behind_begin (ps : List Piece) (r : Reader) (b : UInt8) :
    (r.behind ps).begin b = (r.begin b).behind ps := by
  rw [begin, begin]
  iterate 9 rw [apply_ite (behind ps)]
  rfl

theorem behind_push (ps : List Piece) (r : Reader) (b : UInt8) :
    (r.behind ps).push b = (r.push b).behind ps := by
  rw [push, push, behind_flush, behind_begin, apply_ite (behind ps)]
  dsimp only
  rw [apply_ite (behind ps)]
  rfl

theorem foldl_behind (ps : List Piece) (r : Reader) (bytes : Bytes) :
    bytes.foldl push (r.behind ps) = (bytes.foldl push r).behind ps := by
  induction bytes generalizing r with
  | nil => rfl
  | cons b bytes ih => rw [List.foldl_cons, behind_push, ih, List.foldl_cons]

theorem multibyte_foldl (bytes : Bytes) : (bytes.foldl push {}).Multibyte := by
  induction bytes using List.reverseRecOn with
  | nil => exact fun howed => absurd rfl howed
  | append_singleton bytes b ih =>
    rw [List.foldl_append]
    exact multibyte_push ih b

/-- No piece that the reader has is shown as a line feed. -/
def Unparted (r : Reader) : Prop :=
  ∀ p ∈ r.pieces, p.shown ≠ '\n'

theorem unparted_flush {r : Reader} (h : r.Unparted) : r.flush.Unparted := by
  rw [flush]
  split
  case isTrue => exact h
  case isFalse => exact List.forall_mem_cons.mpr ⟨replacement_ne_lineFeed, h⟩

theorem unparted_begin {r : Reader} (h : r.Unparted) {b : UInt8} (hb : b ≠ 10) :
    (r.begin b).Unparted := by
  rcases r.begin_cases b with ⟨p, hp, hbegin⟩ | ⟨_, _, _, _, -, -, hbegin⟩
  · rw [hbegin]
    exact List.forall_mem_cons.mpr ⟨hp hb, h⟩
  · rw [hbegin]
    exact h

theorem unparted_push {r : Reader} (hm : r.Multibyte) (h : r.Unparted) {b : UInt8}
    (hb : b ≠ 10) : (r.push b).Unparted := by
  rw [push]
  dsimp only
  split_ifs with hnext hlast
  · obtain ⟨howed, hlow, -⟩ := hnext
    have hvalue := (hm howed).2
    rw [hlast, Nat.sub_self, pow_zero, Nat.mul_one] at hvalue
    exact List.forall_mem_cons.mpr ⟨ofNat_ne_lineFeed (by omega), h⟩
  · exact h
  · exact unparted_begin (unparted_flush h) hb

theorem unparted_foldl {bytes : Bytes} (h : 10 ∉ bytes) : (bytes.foldl push {}).Unparted := by
  induction bytes using List.reverseRecOn with
  | nil => exact fun p hp => absurd hp List.not_mem_nil
  | append_singleton bytes b ih =>
    rw [List.mem_append, List.mem_singleton, not_or] at h
    rw [List.foldl_append]
    exact unparted_push (multibyte_foldl bytes) (ih h.1) (Ne.symm h.2)

theorem flush_begin_pieces_ne_nil (r : Reader) (b : UInt8) : (r.begin b).flush.pieces ≠ [] := by
  rcases r.begin_cases b with ⟨p, -, hbegin⟩ | ⟨_, _, _, _, -, -, hbegin⟩ <;> rw [hbegin] <;>
    exact List.cons_ne_nil _ _

/-- A byte is in a piece or in the character in progress. -/
theorem flush_push_pieces_ne_nil (r : Reader) (b : UInt8) : (r.push b).flush.pieces ≠ [] := by
  rw [push]
  dsimp only
  split_ifs
  case pos | neg => exact List.cons_ne_nil _ _
  case neg => exact flush_begin_pieces_ne_nil _ b

end Reader

/-- What stands behind a line feed is read as if nothing stood in front of it. -/
theorem decode_lineFeed (a b : Bytes) :
    decode (a ++ 10 :: b) = decode a ++ .char '\n' :: decode b := by
  have hbetween : ∀ ps, Reader.between ps = ({} : Reader).behind ps := fun _ => rfl
  rw [decode, List.foldl_append, List.foldl_cons, Reader.push_lineFeed (Reader.multibyte_foldl a),
    hbetween, Reader.foldl_behind, Reader.behind_flush]
  simp [Reader.behind, decode]

theorem lossy_lineFeed (a b : Bytes) : lossy (a ++ 10 :: b) = lossy a ++ '\n' :: lossy b := by
  rw [lossy, decode_lineFeed, shown, List.map_append, List.map_cons]
  rfl

theorem lineFeed_notMem_encode {t : Text} (h : '\n' ∉ t) : 10 ∉ encode t := by
  intro hmem
  obtain ⟨a, b, hcut⟩ := List.append_of_mem hmem
  have ht : t = lossy a ++ '\n' :: lossy b := by
    rw [← lossy_lineFeed, ← hcut, lossy_encode]
  exact h (by simp [ht])

/-- Only a line feed is shown as one. -/
theorem lineFeed_notMem_lossy {bytes : Bytes} (h : 10 ∉ bytes) : '\n' ∉ lossy bytes := by
  intro hmem
  obtain ⟨p, hp, hshown⟩ := List.mem_map.mp hmem
  exact Reader.unparted_flush (Reader.unparted_foldl h) p (List.mem_reverse.mp hp) hshown

theorem lossy_eq_nil_iff {bytes : Bytes} : lossy bytes = [] ↔ bytes = [] := by
  rw [lossy, shown, List.map_eq_nil_iff, decode, List.reverse_eq_nil_iff]
  induction bytes using List.reverseRecOn with
  | nil => exact iff_of_true rfl rfl
  | append_singleton bytes b =>
    rw [List.foldl_append]
    exact iff_of_false (Reader.flush_push_pieces_ne_nil _ b) (by simp)

/-- Bytes may be cut at line feeds before or after they are read. -/
theorem splitOn_lossy (bytes : Bytes) :
    (lossy bytes).splitOn '\n' = (bytes.splitOn 10).map lossy := by
  induction bytes using cut_induction (10 : UInt8) with
  | whole a ha =>
    rw [List.splitOn_eq_singleton ha, List.splitOn_eq_singleton (lineFeed_notMem_lossy ha)]
    rfl
  | cut a b ha ih =>
    rw [lossy_lineFeed, splitOn_cut (lineFeed_notMem_lossy ha), ih, splitOn_cut ha, List.map_cons]

end LineShell.Text

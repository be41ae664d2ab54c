import LineShell.Text.Width

/-! The columns of a text that a blank parts are those of its parts. A ligature takes a column away,
so that the columns behind a text are only added to its own where it does not take one of those. -/

namespace LineShell.Text

/-- What a column is taken away from, once the right character stands in front of it. -/
def Following.owes (f : Following) : Bool :=
  match f.shape with
  | .khmerLetter | .tifinaghJoiner | .joinedIndicator | .joinedOddIndicators => true
  | _ => false

/-- The column that may be taken away has been counted. -/
def Covered (m : Nat × Following) : Prop :=
  m.2.owes = true → 0 < m.1

/-- Two measures of one text, the second with `n` columns behind it. -/
structure Ahead (n : Nat) (m m' : Nat × Following) : Prop where
  columns : m'.1 = m.1 + n
  same : m'.2 = m.2
  covered : Covered m

section Measure

variable {c : Char} {n total : Nat} {f g : Following}

theorem Covered.of_pos (h : 0 < total) : Covered (total, f) :=
  fun _ => h

theorem Covered.of_owes_eq_false (h : f.owes = false) : Covered (total, f) := fun howes =>
  absurd (h.symm.trans howes) Bool.false_ne_true

theorem Covered.unselected (h : Covered (total, f)) : Covered (total, f.unselected) := by
  rw [Following.unselected]
  split
  · exact h
  · exact .of_owes_eq_false rfl

theorem Ahead.add (k : Nat) (h : Covered (total + k, g)) :
    Ahead n (total + k, g) (total + n + k, g) :=
  ⟨Nat.add_right_comm _ _ _, rfl, h⟩

theorem Ahead.count (k : Nat) : Ahead n (total + (k + 1), g) (total + n + (k + 1), g) :=
  .add _ (.of_pos (Nat.succ_pos _))

theorem Ahead.keep (h : Covered (total, g)) : Ahead n (total, g) (total + n, g) :=
  ⟨rfl, rfl, h⟩

/-- One of the text's own columns is taken away. -/
theorem Ahead.take (htotal : 0 < total) (h : g.owes = false) :
    Ahead n (total - 1, g) (total + n - 1, g) :=
  ⟨Nat.sub_add_comm htotal, rfl, .of_owes_eq_false h⟩

theorem covered_columnsAlone (c : Char) : Covered (columnsAlone c) := by
  rw [columnsAlone]
  refine iteInduction (fun _ => .of_owes_eq_false rfl) fun _ => ?_
  repeat' refine iteInduction (fun _ => .of_pos (by decide)) fun _ => ?_
  exact .of_pos Nat.one_pos

/-- A flag that is spelled in tags owes no column. -/
theorem owes_tagged {letters digits : Nat} {shape : Shape}
    (h : tagged letters digits c = some shape) : Following.owes { shape } = false := by
  rw [tagged] at h
  split at h
  · cases h; rfl
  split at h
  · cases h; rfl
  split at h
  · cases h; rfl
  · cases h

theorem ahead_formed (h : Covered (total, f)) :
    Ahead n (formed c total f) (formed c (total + n) f) := by
  have halone : Ahead n (total + (columnsAlone c).1, (columnsAlone c).2)
      (total + n + (columnsAlone c).1, (columnsAlone c).2) :=
    .add _ fun howes => Nat.add_pos_right _ (covered_columnsAlone c howes)
  rw [formed, formed]
  generalize columnsAlone c = alone at halone
  obtain ⟨shape, joiner, emoji, text⟩ := f
  cases shape
  case plain | lineFeed | joinedKeycap => exact halone
  case khmerLetter | tifinaghJoiner =>
    dsimp only
    split
    · exact .take (h rfl) rfl
    · exact halone
  case joinedIndicator | joinedOddIndicators =>
    dsimp only
    split
    · exact .take (h rfl) rfl
    split
    · exact .keep (.of_owes_eq_false rfl)
    · exact halone
  case joinedTags =>
    dsimp only
    split
    case h_1 htagged => exact .keep (.of_owes_eq_false (owes_tagged htagged))
    case h_2 => exact halone
  -- The other shapes take nothing away: a character is added, passed over, or counted alone.
  all_goals
    dsimp only
    repeat' split
    all_goals first
      | exact halone
      | exact .keep (.of_owes_eq_false rfl)
      | exact .count _

theorem ahead_measure (h : Covered (total, f)) :
    Ahead n (measure c total f) (measure c (total + n) f) := by
  rw [measure, measure]
  by_cases hemoji : (f.emojiSelector && emojiBase.holds c) = true
  · rw [if_pos hemoji, if_pos hemoji]
    split
    · exact .keep (.of_owes_eq_false rfl)
    · exact .count _
  rw [if_neg hemoji, if_neg hemoji]
  replace h : Covered (total, if f.emojiSelector then f.unselected else f) := by
    split
    · exact h.unselected
    · exact h
  generalize (if f.emojiSelector then f.unselected else f) = f at h
  dsimp only
  split
  · split
    · exact .keep (.of_owes_eq_false rfl)
    split
    · exact .keep (.of_owes_eq_false rfl)
    · exact .count _
  split
  · refine .keep ?_
    split
    · exact h
    · exact .of_owes_eq_false rfl
  split
  · refine .keep ?_
    split
    · exact h
    · exact .of_owes_eq_false rfl
  split
  · exact .count _
  replace h : Covered (total, if f.textSelector then f.unselected else f) := by
    split
    · exact h.unselected
    · exact h
  generalize (if f.textSelector then f.unselected else f) = f at h
  split
  · exact .keep h
  split
  · exact .keep h
  · exact ahead_formed h

end Measure

theorem ahead_foldr {n : Nat} {m m' : Nat × Following} (h : Ahead n m m') (t : Text) :
    Ahead n (t.foldr (fun c m => measure c m.1 m.2) m)
      (t.foldr (fun c m => measure c m.1 m.2) m') := by
  induction t with
  | nil => exact h
  | cons c t ih =>
    obtain ⟨hcolumns, hsame, hcovered⟩ := ih
    rw [List.foldr_cons, List.foldr_cons, hcolumns, hsame]
    exact ahead_measure hcovered

/-- A character that takes one column whatever stands behind it, and keeps what stands in front of
it apart from that. -/
def StandsAlone (c : Char) : Prop :=
  ∀ total f, measure c total f = (total + 1, {})

theorem standsAlone_of_le {c : Char} (hlow : c.toNat ≤ 0xA0) (hbase : emojiBase.holds c = false)
    (hlineFeed : c ≠ '\n') (hreturn : c ≠ '\r') : StandsAlone c := by
  intro total f
  rw [measure, hbase, Bool.and_false, if_neg Bool.false_ne_true]
  dsimp only
  rw [if_pos hlow, if_neg hlineFeed, if_neg fun h => hreturn h.1]

theorem standsAlone_blank : StandsAlone ' ' :=
  standsAlone_of_le (by decide) (by decide) (by decide) (by decide)

theorem measured_append (a b : Text) :
    measured (a ++ b) = a.foldr (fun c m => measure c m.1 m.2) (measured b) :=
  List.foldr_append

theorem StandsAlone.width_cons {c : Char} (hc : StandsAlone c) (t : Text) :
    width (c :: t) = width t + 1 :=
  congrArg Prod.fst (hc _ _)

/-- Nothing in front of such a character depends on what stands behind it. -/
theorem StandsAlone.width_append {c : Char} (hc : StandsAlone c) (a b : Text) :
    width (a ++ c :: b) = width a + (width b + 1) := by
  have hbehind : measured (c :: b) = (0 + (width b + 1), {}) := by
    rw [Nat.zero_add]
    exact hc _ _
  have hahead : Ahead (width b + 1) (0, {}) (0 + (width b + 1), {}) :=
    .keep (.of_owes_eq_false rfl)
  rw [width, measured_append, hbehind, (ahead_foldr hahead a).columns]
  rfl

theorem StandsAlone.width_ahead {c : Char} (hc : StandsAlone c) (t : Text) {back : Text}
    (hback : back.head? = some c) : width (t ++ back) = width t + width back := by
  obtain ⟨rest, rfl⟩ := List.head?_eq_some_iff.mp hback
  rw [hc.width_append, hc.width_cons]

theorem StandsAlone.width_behind {c : Char} (hc : StandsAlone c) {front : Text}
    (hfront : front.getLast? = some c) (t : Text) : width (front ++ t) = width front + width t := by
  obtain ⟨before, rfl⟩ := List.getLast?_eq_some_iff.mp hfront
  have hlast : width (before ++ [c]) = width before + 1 := hc.width_append before []
  rw [List.append_assoc, List.singleton_append, hc.width_append, hlast]
  omega

theorem width_blank (t : Text) : width (' ' :: t) = width t + 1 :=
  standsAlone_blank.width_cons t

/-- A blank parts a text. -/
theorem width_append_blank (a b : Text) : width (a ++ ' ' :: b) = width a + (width b + 1) :=
  standsAlone_blank.width_append a b

/-- What stands behind a line feed is not made narrower by what stands in front of it. -/
theorem width_le_append_lineFeed (a b : Text) : width b ≤ width (a ++ '\n' :: b) := by
  have hbase : emojiBase.holds '\n' = false := by decide
  have hbehind : measured ('\n' :: b) = (0 + width b, { shape := .lineFeed }) := by
    rw [Nat.zero_add]
    change measure '\n' (measured b).1 (measured b).2 = _
    rw [measure, hbase, Bool.and_false]
    rfl
  have hahead : Ahead (width b) (0, { shape := .lineFeed })
      (0 + width b, { shape := .lineFeed }) := .keep (.of_owes_eq_false rfl)
  have hwidth : width (a ++ '\n' :: b) = (measured (a ++ '\n' :: b)).1 := rfl
  rw [hwidth, measured_append, hbehind, (ahead_foldr hahead a).columns]
  exact Nat.le_add_left _ _

theorem blanks_succ (n : Nat) : blanks (n + 1) = ' ' :: blanks n :=
  rfl

theorem width_blanks_append (n : Nat) (t : Text) : width (blanks n ++ t) = n + width t := by
  induction n with
  | zero => exact (Nat.zero_add _).symm
  | succ n ih =>
    rw [blanks_succ, List.cons_append, width_blank, ih]
    omega

/-- A text that is filled up with blanks takes its own columns and one for each blank. -/
theorem width_append_blanks_append (a : Text) {n : Nat} (hn : 0 < n) (b : Text) :
    width (a ++ (blanks n ++ b)) = width a + n + width b := by
  cases n with
  | zero => exact absurd hn (Nat.lt_irrefl 0)
  | succ n =>
    rw [blanks_succ, List.cons_append, width_append_blank, width_blanks_append]
    omega

/-- The signs, digits and letters that every terminal shows, and plain blanks. -/
def Printable (t : Text) : Prop :=
  ∀ c ∈ t, 0x20 ≤ c.toNat ∧ c.toNat ≤ 0x7E

instance (t : Text) : Decidable (Printable t) :=
  List.decidableBAll (fun c : Char => 0x20 ≤ c.toNat ∧ c.toNat ≤ 0x7E) t

theorem measured_printable {t : Text} (h : Printable t) : measured t = (t.length, {}) := by
  induction t with
  | nil => rfl
  | cons c t ih =>
    have hrest : Printable t := fun d hd => h d (List.mem_cons_of_mem c hd)
    obtain ⟨hlow, hhigh⟩ := h c List.mem_cons_self
    have hcontrol {d : Char} (hd : d.toNat < 0x20) : c ≠ d := by
      rintro rfl
      omega
    change measure c (measured t).1 (measured t).2 = _
    rw [ih hrest]
    change (if c.toNat ≤ 0xA0 then _ else _) = _
    rw [if_pos (by omega), if_neg (hcontrol (by decide)), if_neg fun hc => by cases hc.2]
    rfl

theorem width_printable {t : Text} (h : Printable t) : width t = t.length :=
  congrArg Prod.fst (measured_printable h)

theorem Printable.append {a b : Text} (ha : Printable a) (hb : Printable b) : Printable (a ++ b) :=
  List.forall_mem_append.mpr ⟨ha, hb⟩

theorem Printable.notMem {t : Text} (h : Printable t) {c : Char} (hc : c.toNat < 0x20) : c ∉ t :=
  fun hmem => absurd (h c hmem).1 (Nat.not_le_of_lt hc)

theorem printable_blanks (n : Nat) : Printable (blanks n) := by
  intro c hc
  rw [List.eq_of_mem_replicate hc]
  decide

/-- A printable text that leaves some of `w` columns free. -/
structure Leaves (w free : Nat) (t : Text) : Prop where
  printable : Printable t
  room : t.length + free ≤ w

instance (w free : Nat) (t : Text) : Decidable (Leaves w free t) :=
  decidable_of_iff (Printable t ∧ t.length + free ≤ w) ⟨fun ⟨hp, hr⟩ => ⟨hp, hr⟩,
    fun ⟨hp, hr⟩ => ⟨hp, hr⟩⟩

theorem Leaves.mono {w w' free : Nat} {t : Text} (h : Leaves w free t) (hw : w ≤ w') :
    Leaves w' free t :=
  ⟨h.printable, Nat.le_trans h.room hw⟩

/-- Something in front of a text takes of the columns that the text leaves. -/
theorem Leaves.behind {w free : Nat} {front t : Text} (h : Leaves w (free + front.length) t)
    (hfront : Printable front) : Leaves w free (front ++ t) := by
  have hroom := h.room
  refine ⟨hfront.append h.printable, ?_⟩
  rw [List.length_append]
  omega

end LineShell.Text

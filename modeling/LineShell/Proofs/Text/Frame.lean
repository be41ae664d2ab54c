import LineShell.Proofs.Text.LineFeed
import LineShell.Proofs.Text.Paint
import LineShell.Proofs.Text.Width

/-! Frames without colours. A frame is drawn as wide as it is to be just where all that is put into
it fits between its sides. -/

namespace LineShell.Text

section Lines

variable {w : Nat} {t : Text} {parts : List Text}

/-- Every line of a text takes so many columns. -/
def Rectangular (w : Nat) (t : Text) : Prop :=
  ∀ line ∈ t.splitOn '\n', width line = w

instance (w : Nat) (t : Text) : Decidable (Rectangular w t) := by
  unfold Rectangular; infer_instance

theorem rectangular_iff_of_notMem (h : '\n' ∉ t) : Rectangular w t ↔ width t = w := by
  rw [Rectangular, List.splitOn_eq_singleton h, List.forall_mem_singleton]

theorem stacked_cons {first : Text} {rest : List Text} (h : rest ≠ []) :
    stacked (first :: rest) = first ++ '\n' :: stacked rest := by
  cases rest with
  | nil => exact absurd rfl h
  | cons second rest =>
    rw [stacked, stacked, joined, joined, List.intercalate_cons_cons, List.append_assoc]
    rfl

theorem splitOn_stacked (h : parts ≠ []) :
    (stacked parts).splitOn '\n' = parts.flatMap (·.splitOn '\n') := by
  induction parts with
  | nil => exact absurd rfl h
  | cons first rest ih =>
    by_cases hrest : rest = []
    · rw [hrest, stacked, joined, List.intercalate_singleton, List.flatMap_singleton]
    · rw [stacked_cons hrest, List.splitOn_append_cons_self, ih hrest, List.flatMap_cons]

theorem rectangular_stacked_iff (h : parts ≠ []) :
    Rectangular w (stacked parts) ↔ ∀ part ∈ parts, Rectangular w part := by
  rw [Rectangular, splitOn_stacked h, List.forall_mem_flatMap]
  rfl

/-- A text that has more than one line. -/
theorem exists_splitOn_of_mem (h : '\n' ∈ t) :
    ∃ first middle last, t.splitOn '\n' = first :: (middle ++ [last]) := by
  obtain ⟨a, b, rfl, ha⟩ := List.eq_append_cons_of_mem h
  obtain ⟨middle, last, hb⟩ :=
    (List.eq_nil_or_concat (b.splitOn '\n')).resolve_left (List.splitOn_ne_nil _ _)
  exact ⟨a, middle, last, by rw [splitOn_cut ha, hb, List.concat_eq_append]⟩

/-- A list of more than one item has its two ends and what stands between them in one way only. -/
theorem exists_ends_iff {α : Type} {items middle : List α} {first last : α}
    {P : α → List α → α → Prop} (h : items = first :: (middle ++ [last])) :
    (∃ f m l, items = f :: (m ++ [l]) ∧ P f m l) ↔ P first middle last := by
  subst h
  refine ⟨?_, fun hP => ⟨first, middle, last, rfl, hP⟩⟩
  rintro ⟨f, m, l, heq, hP⟩
  obtain ⟨rfl, hrest⟩ := List.cons.inj heq
  obtain ⟨rfl, hend⟩ := List.append_inj' hrest rfl
  rwa [(List.cons.inj hend).1]

theorem splitOn_append_of_notMem {back : Text} (hback : '\n' ∉ back) {above : List Text}
    {last : Text} (h : t.splitOn '\n' = above ++ [last]) :
    (t ++ back).splitOn '\n' = above ++ [last ++ back] := by
  induction t using cut_induction '\n' generalizing above with
  | whole a ha =>
    have hnone : '\n' ∉ a ++ back := by
      rw [List.mem_append]
      exact not_or.mpr ⟨ha, hback⟩
    rw [List.splitOn_eq_singleton ha] at h
    obtain ⟨rfl, hlast⟩ := List.append_inj' ((List.nil_append [a]).trans h) rfl
    obtain rfl := (List.cons.inj hlast).1
    exact List.splitOn_eq_singleton hnone
  | cut a b ha ih =>
    rw [splitOn_cut ha] at h
    cases above with
    | nil => exact absurd (List.cons.inj h).2 (List.splitOn_ne_nil _ _)
    | cons first above =>
      obtain ⟨rfl, hrest⟩ := List.cons.inj h
      rw [List.append_assoc, List.cons_append, splitOn_cut ha, ih hrest]
      rfl

/-- Something in front of a text and behind it is on its first and on its last line. -/
theorem splitOn_between {front back : Text} (hfront : '\n' ∉ front) (hback : '\n' ∉ back)
    {first last : Text} {middle : List Text}
    (h : t.splitOn '\n' = first :: (middle ++ [last])) :
    (front ++ (t ++ back)).splitOn '\n' = (front ++ first) :: (middle ++ [last ++ back]) := by
  have hbehind : (t ++ back).splitOn '\n' = (first :: middle) ++ [last ++ back] :=
    splitOn_append_of_notMem hback h
  induction front with
  | nil => exact hbehind
  | cons c front ih =>
    rw [List.mem_cons, not_or] at hfront
    have hc : (c == '\n') = false := beq_eq_false_iff_ne.mpr (Ne.symm hfront.1)
    rw [List.cons_append, List.splitOn, List.splitOnP_cons_eq_if_modifyHead, hc,
      if_neg Bool.false_ne_true, ← List.splitOn, ih hfront.2]
    rfl

/-- The last line of a text is no wider than the text. -/
theorem width_last_le {first last : Text} {middle : List Text}
    (h : t.splitOn '\n' = first :: (middle ++ [last])) : width last ≤ width t := by
  have ht : t = stacked (first :: (middle ++ [last])) := by
    rw [← h, stacked, joined, List.intercalate_splitOn]
  obtain ⟨above, habove⟩ : ∃ above, t = above ++ '\n' :: last := by
    rw [ht]
    clear ht h
    induction middle generalizing first with
    | nil => exact ⟨first, by rw [List.nil_append, stacked_cons (by simp), stacked, joined,
        List.intercalate_singleton]⟩
    | cons second middle ih =>
      obtain ⟨above, habove⟩ := @ih second
      refine ⟨first ++ '\n' :: above, ?_⟩
      rw [stacked_cons (by simp), List.cons_append, habove, List.append_assoc, List.cons_append]
  rw [habove]
  exact width_le_append_lineFeed above last

end Lines

/-- The signs that frames are drawn with. -/
def frameSigns : Text :=
  ['╔', '═', '╗', '║', '╟', '─', '╢', '╚', '╝']

theorem forall_frameSigns {P : Char → Prop} [DecidablePred P]
    (h : frameSigns.all (fun c => P c) = true) : ∀ c ∈ frameSigns, P c :=
  fun c hc => of_decide_eq_true (List.all_eq_true.mp h c hc)

/-- No sign of a frame takes part in a letter or in an emoji. -/
theorem formed_frameSign {c : Char} (hc : c ∈ frameSigns) (total : Nat) (f : Following) :
    formed c total f = (total + 1, {}) := by
  have halone : ∀ c ∈ frameSigns, columnsAlone c = (1, {}) := forall_frameSigns (by decide +kernel)
  have htables : ∀ c ∈ frameSigns, zeroWidth.holds c = false ∧ modifierBase.holds c = false ∧
      emojiPresentation.holds c = false := forall_frameSigns (by decide +kernel)
  obtain ⟨hzero, hmodifier, hemoji⟩ := htables c hc
  rw [formed, halone c hc, hzero, hmodifier, hemoji]
  obtain ⟨shape, joiner, emojiSelector, textSelector⟩ := f
  simp only [frameSigns, List.mem_cons, List.not_mem_nil, or_false] at hc
  rcases hc with rfl | rfl | rfl | rfl | rfl | rfl | rfl | rfl | rfl <;> cases shape <;>
    first | rfl | (cases joiner <;> rfl)

theorem standsAlone_frameSign {c : Char} (hc : c ∈ frameSigns) : StandsAlone c := by
  intro total f
  have htables : ∀ c ∈ frameSigns, emojiBase.holds c = false ∧ textBase.holds c = false ∧
      0xA0 < c.toNat ∧ c.toNat < 0xFE00 ∧ c.toNat ≠ 0x200D :=
    forall_frameSigns (by decide +kernel)
  obtain ⟨hemoji, htext, hlow, hhigh, hjoiner⟩ := htables c hc
  rw [measure, hemoji, htext, Bool.and_false, if_neg Bool.false_ne_true]
  generalize (if f.emojiSelector then f.unselected else f) = f
  dsimp only
  rw [if_neg (by omega), if_neg (by omega), if_neg (by omega), Bool.and_false,
    if_neg Bool.false_ne_true]
  generalize (if f.textSelector then f.unselected else f) = f
  rw [decide_eq_false hjoiner, Bool.and_false, if_neg Bool.false_ne_true, if_neg,
    formed_frameSign hc]
  rw [Bool.and_eq_true]
  rintro ⟨-, hmark⟩
  simp only [frameSigns, List.mem_cons, List.not_mem_nil, or_false] at hc
  rcases hc with rfl | rfl | rfl | rfl | rfl | rfl | rfl | rfl | rfl <;>
    exact absurd hmark (by decide)

/-- What fits between the sides of a row: a line that leaves room for them and for a blank, or
several lines, each as wide as what stands before or behind it leaves room for. -/
def Fits (w : Nat) (t : Text) : Prop :=
  ('\n' ∉ t ∧ width t + 3 ≤ w) ∨
    ∃ first middle last, t.splitOn '\n' = first :: (middle ++ [last]) ∧ width first + 2 = w ∧
      (∀ m ∈ middle, width m = w) ∧ width last + 1 = w

theorem fits_iff_of_notMem {w : Nat} {t : Text} (h : '\n' ∉ t) : Fits w t ↔ width t + 3 ≤ w := by
  rw [Fits, and_iff_right h, or_iff_left]
  rintro ⟨first, middle, last, hsplit, -⟩
  rw [List.splitOn_eq_singleton h] at hsplit
  simpa using congrArg List.length hsplit

theorem Fits.first {w : Nat} {a b : Text} (h : Fits w (a ++ '\n' :: b)) (ha : '\n' ∉ a) :
    width a + 2 = w := by
  rcases h with ⟨hnone, -⟩ | ⟨first, middle, last, hsplit, hfirst, -⟩
  · exact absurd (List.mem_append_right a List.mem_cons_self) hnone
  · rw [splitOn_cut ha] at hsplit
    rwa [(List.cons.inj hsplit).1]

namespace Framed

variable {w : Nat} {r : Row} {t : Text}

theorem shown_uncoloured (r : Row) : r.shown false = r.plain := by
  refine List.flatMap_congr fun s _ => ?_
  obtain ⟨style, t⟩ := s
  cases style <;> rfl

theorem line_uncoloured (inner : Nat) (r : Row) :
    line false inner (.row r) =
      ['║', ' '] ++ (r.plain ++ (blanks (inner - (width r.plain + 1)) ++ ['║'])) := by
  have hside : frameStyle.paint false ['║'] = ['║'] := rfl
  rw [line, shown_uncoloured, hside]
  simp

theorem width_between_sides (t : Text) (n : Nat) :
    width (t ++ (blanks n ++ ['║'])) = width t + n + 1 := by
  have hside : StandsAlone '║' := standsAlone_frameSign (by decide)
  cases n with
  | zero => exact hside.width_append t []
  | succ n =>
    rw [width_append_blanks_append t (Nat.succ_pos n), hside.width_cons]
    rfl

theorem width_behind_side (t : Text) : width (['║', ' '] ++ t) = width t + 2 := by
  have hside : StandsAlone '║' := standsAlone_frameSign (by decide)
  rw [List.cons_append, hside.width_cons, List.cons_append, width_blank, List.nil_append]

/-- A rule, or a row of printable text for which there is room in a frame of `w` columns. -/
def HasRoom (w : Nat) : Framed → Prop
  | .rule => True
  | .row r => Leaves w 3 r.plain

theorem lineFeed_notMem_line {r : Row} (h : '\n' ∉ r.plain) (inner : Nat) :
    '\n' ∉ line false inner (.row r) := by
  rw [line_uncoloured]
  simp only [List.mem_append, not_or]
  exact ⟨by decide, h, notMem_blanks (by decide) _, by decide⟩

/-- A row is as wide as its frame just if its text fits. -/
theorem rectangular_row_iff :
    Rectangular w (line false (inside w) (.row r)) ↔ Fits w r.plain := by
  by_cases hmem : '\n' ∈ r.plain
  · rw [line_uncoloured, inside]
    have hback (n : Nat) : '\n' ∉ blanks n ++ ['║'] := by
      rw [List.mem_append, not_or]
      exact ⟨notMem_blanks (by decide) n, by decide⟩
    obtain ⟨first, middle, last, hsplit⟩ := exists_splitOn_of_mem hmem
    have hlast := width_last_le hsplit
    rw [Fits, or_iff_right fun h => h.1 hmem, exists_ends_iff hsplit, Rectangular,
      splitOn_between (by decide) (hback _) hsplit, List.forall_mem_cons, List.forall_mem_append,
      List.forall_mem_singleton, width_behind_side, width_between_sides]
    refine and_congr_right fun _ => and_congr_right fun _ => ?_
    -- the text is not narrower than its last line, so that nothing is left to be filled up
    omega
  · rw [rectangular_iff_of_notMem (lineFeed_notMem_line hmem _), fits_iff_of_notMem hmem,
      line_uncoloured, inside, width_behind_side, width_between_sides]
    omega

theorem plain_text (t : Text) : Row.plain [.plain t] = t :=
  List.flatMap_singleton ..

theorem plain_styled (style : Style) (t : Text) : Row.plain [.styled style t] = t :=
  List.flatMap_singleton ..

theorem rectangular_text_iff :
    Rectangular w (line false (inside w) (text t)) ↔ Fits w t := by
  rw [text, rectangular_row_iff, plain_text]

theorem plain_centered (inner : Nat) (t : Text) :
    Row.plain [.plain (blanks ((inner - width t) / 2 - 1)), .styled .boldBrightCyan t] =
      blanks ((inner - width t) / 2 - 1) ++ t := by
  change _ ++ (t ++ []) = _
  rw [List.append_nil]
  rfl

/-- There is room for the blanks in front of a title wherever there is room for the title. -/
theorem rectangular_centered_iff (h : '\n' ∉ t) :
    Rectangular w (line false (inside w) (centered (inside w) t)) ↔ width t + 3 ≤ w := by
  have hnone (n : Nat) : '\n' ∉ blanks n ++ t := by
    rw [List.mem_append, not_or]
    exact ⟨notMem_blanks (by decide) n, h⟩
  rw [centered, rectangular_row_iff, plain_centered, fits_iff_of_notMem (hnone _),
    width_blanks_append, inside]
  omega

theorem width_bar {left stroke right : Char} (hleft : left ∈ frameSigns)
    (hstroke : stroke ∈ frameSigns) (hright : right ∈ frameSigns) (inner : Nat) :
    width (bar false left stroke right inner) = inner + 2 := by
  have hbar : bar false left stroke right inner =
      left :: (List.replicate inner stroke ++ [right]) := rfl
  rw [hbar, (standsAlone_frameSign hleft).width_cons]
  induction inner with
  | zero => exact congrArg (· + 1) ((standsAlone_frameSign hright).width_cons [])
  | succ inner ih =>
    rw [List.replicate_succ, List.cons_append, (standsAlone_frameSign hstroke).width_cons]
    have hrest := ih rfl
    omega

theorem lineFeed_notMem_bar {left stroke right : Char} (hleft : left ∈ frameSigns)
    (hstroke : stroke ∈ frameSigns) (hright : right ∈ frameSigns) (inner : Nat) :
    '\n' ∉ bar false left stroke right inner := by
  have hsign {c : Char} (hc : c ∈ frameSigns) : c ≠ '\n' := by
    rintro rfl
    exact absurd hc (by decide)
  change '\n' ∉ left :: (List.replicate inner stroke ++ [right])
  rw [List.mem_cons, List.mem_append, List.mem_replicate, List.mem_singleton]
  rintro (h | ⟨-, h⟩ | h)
  exacts [hsign hleft h.symm, hsign hstroke h.symm, hsign hright h.symm]

theorem rectangular_bar {left stroke right : Char} (hleft : left ∈ frameSigns)
    (hstroke : stroke ∈ frameSigns) (hright : right ∈ frameSigns) (hw : 2 ≤ w) :
    Rectangular w (bar false left stroke right (inside w)) := by
  rw [rectangular_iff_of_notMem (lineFeed_notMem_bar hleft hstroke hright _),
    width_bar hleft hstroke hright, inside]
  omega

theorem rectangular_rule (hw : 2 ≤ w) : Rectangular w (line false (inside w) .rule) :=
  rectangular_bar (by decide) (by decide) (by decide) hw

theorem HasRoom.rectangular {f : Framed} (h : f.HasRoom w) (hw : 2 ≤ w) :
    Rectangular w (f.line false (inside w)) := by
  cases f with
  | rule => exact rectangular_rule hw
  | row r =>
    have h : Leaves w 3 r.plain := h
    rw [rectangular_row_iff, fits_iff_of_notMem (h.printable.notMem (by decide)),
      width_printable h.printable]
    exact h.room

theorem HasRoom.lineFeed_notMem {f : Framed} (h : f.HasRoom w) (inner : Nat) :
    '\n' ∉ f.line false inner := by
  cases f with
  | rule => exact lineFeed_notMem_bar (by decide) (by decide) (by decide) inner
  | row r =>
    have h : Leaves w 3 r.plain := h
    exact lineFeed_notMem_line (h.printable.notMem (by decide)) inner

theorem hasRoom_text (h : Leaves w 3 t) : (text t).HasRoom w := by
  change Leaves w 3 (Row.plain [.plain t])
  rwa [plain_text]

theorem hasRoom_centered (h : Leaves w 3 t) : (centered (inside w) t).HasRoom w := by
  change Leaves w 3 (Row.plain _)
  have hroom := h.room
  rw [plain_centered, inside, width_printable h.printable]
  refine ⟨(printable_blanks _).append h.printable, ?_⟩
  rw [List.length_append, blanks, List.length_replicate]
  omega

end Framed

/-- A frame is as wide as it is to be just if each of its lines is. -/
theorem rectangular_frame_iff {w : Nat} (hw : 2 ≤ w) (content : List Framed) :
    Rectangular w (stacked (frame false w content)) ↔
      ∀ f ∈ content, Rectangular w (f.line false (inside w)) := by
  have hbar (left right : Char) (hleft : left ∈ frameSigns) (hright : right ∈ frameSigns) :
      Rectangular w (Framed.bar false left '═' right (inside w)) :=
    Framed.rectangular_bar hleft (by decide) hright hw
  rw [frame, List.cons_append, rectangular_stacked_iff (List.cons_ne_nil _ _), List.forall_mem_cons,
    List.forall_mem_append, List.forall_mem_singleton, List.forall_mem_map,
    and_iff_right (hbar '╔' '╗' (by decide) (by decide)),
    and_iff_left (hbar '╚' '╝' (by decide) (by decide))]

theorem splitOn_frame {w : Nat} {content : List Framed} (h : ∀ f ∈ content, f.HasRoom w) :
    (stacked (frame false w content)).splitOn '\n' = frame false w content := by
  have hbar {left right : Char} (hleft : left ∈ frameSigns) (hright : right ∈ frameSigns) :
      '\n' ∉ Framed.bar false left '═' right (inside w) :=
    Framed.lineFeed_notMem_bar hleft (by decide) hright _
  refine List.splitOn_intercalate _ ?_ (List.cons_ne_nil _ _)
  rw [frame, List.cons_append, List.forall_mem_cons, List.forall_mem_append,
    List.forall_mem_singleton, List.forall_mem_map]
  exact ⟨hbar (by decide) (by decide), fun f hf => (h f hf).lineFeed_notMem _,
    hbar (by decide) (by decide)⟩

end LineShell.Text

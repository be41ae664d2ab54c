import LineShell.Text.Frame
import Mathlib.Data.List.Forall2

/-! Texts with colours, and the same texts without. A text is laid out by what it is without colours
and shown with them, so the two runs are followed side by side: each part that one of them shows is
the part that the other shows, painted. -/

namespace LineShell.Text

/-- Without its escape sequences the painted text is the plain one, whatever stands behind it. -/
def Paints (plain painted : Text) : Prop :=
  ∀ rest, unpainted false (painted ++ rest) = plain ++ unpainted false rest

namespace Paints

variable {plain painted plain' painted' t separator : Text}

theorem unpainted_eq (h : Paints plain painted) : unpainted false painted = plain := by
  have hall := h []
  rwa [List.append_nil, unpainted, List.append_nil] at hall

theorem append (h : Paints plain painted) (h' : Paints plain' painted') :
    Paints (plain ++ plain') (painted ++ painted') := by
  intro rest
  rw [List.append_assoc, h, h', List.append_assoc]

/-- A text without escape characters has nothing to take out. -/
theorem of_notMem (h : escape ∉ t) : Paints t t := by
  intro rest
  induction t with
  | nil => rfl
  | cons c t ih =>
    rw [List.mem_cons, not_or] at h
    rw [List.cons_append, unpainted, if_neg (Ne.symm h.1), ih h.2, List.cons_append]

theorem flatMap {α : Type} {f g : α → Text} {items : List α}
    (h : ∀ a ∈ items, Paints (f a) (g a)) : Paints (items.flatMap f) (items.flatMap g) := by
  induction items with
  | nil => exact of_notMem List.not_mem_nil
  | cons a items ih =>
    rw [List.forall_mem_cons] at h
    exact h.1.append (ih h.2)

theorem joined (hseparator : escape ∉ separator) {ps qs : List Text}
    (h : List.Forall₂ Paints ps qs) :
    Paints (Text.joined separator ps) (Text.joined separator qs) := by
  induction h with
  | nil => exact of_notMem List.not_mem_nil
  | cons hfirst hrest ih =>
    cases hrest with
    | nil => simpa [Text.joined] using hfirst
    | cons h₂ hrest =>
      simp only [Text.joined, List.intercalate_cons_cons, List.append_assoc] at ih ⊢
      exact hfirst.append ((of_notMem hseparator).append ih)

theorem stacked {ps qs : List Text} (h : List.Forall₂ Paints ps qs) :
    Paints (Text.stacked ps) (Text.stacked qs) :=
  joined (by decide) h

end Paints

theorem notMem_blanks {c : Char} (hc : c ≠ ' ') (n : Nat) : c ∉ blanks n := fun h =>
  hc (List.eq_of_mem_replicate h)

theorem escape_notMem_blanks (n : Nat) : escape ∉ blanks n :=
  notMem_blanks (by decide) n

namespace Style

theorem resumed_of_notMem (opening : Text) {t : Text} (h : escape ∉ t) :
    resumed opening 0 t = t := by
  induction t with
  | nil => rfl
  | cons c t ih =>
    rw [List.mem_cons, not_or] at h
    have hreset : reset.isPrefixOf (c :: t) = false := by
      rw [reset, List.isPrefixOf_cons_cons, beq_eq_false_iff_ne.mpr h.1, Bool.false_and]
    rw [resumed, hreset, ih h.2]
    rfl

/-- The parameters of a style end at the `m`. -/
def Closed (s : Style) : Prop :=
  'm' ∉ s.parameters

instance (s : Style) : Decidable s.Closed := by
  unfold Closed; infer_instance

theorem unpainted_true (rest : Text) {t : Text} (h : 'm' ∉ t) :
    unpainted true (t ++ 'm' :: rest) = unpainted false rest := by
  induction t with
  | nil => rfl
  | cons c t ih =>
    rw [List.mem_cons, not_or] at h
    rw [List.cons_append, unpainted, decide_eq_true (Ne.symm h.1), ih h.2]

theorem paints_opening {s : Style} (h : s.Closed) : Paints [] s.opening := by
  intro rest
  have hinside : 'm' ∉ '[' :: s.parameters := List.not_mem_cons_of_ne_of_not_mem (by decide) h
  have hopening : s.opening ++ rest = escape :: (('[' :: s.parameters) ++ 'm' :: rest) := by
    simp [opening]
  rw [hopening, unpainted, if_pos rfl, unpainted_true rest hinside]
  rfl

theorem paints_reset : Paints [] reset := fun _ => rfl

theorem paints_paint {s : Style} (h : s.Closed) {t : Text} (ht : escape ∉ t) :
    Paints (s.paint false t) (s.paint true t) := by
  have hall := ((paints_opening h).append (Paints.of_notMem ht)).append paints_reset
  rw [paint, paint, if_pos rfl, resumed_of_notMem _ ht]
  simpa using hall

end Style

/-- A span that has no escape sequence but that of its style. -/
structure Span.Clean (s : Span) : Prop where
  text : escape ∉ s.text
  style : ∀ style ∈ s.style, style.Closed

theorem Span.clean_plain {t : Text} (h : escape ∉ t) : (Span.plain t).Clean :=
  ⟨h, by rintro _ ⟨⟩⟩

theorem Span.clean_styled {s : Style} (hs : s.Closed) {t : Text} (h : escape ∉ t) :
    (Span.styled s t).Clean :=
  ⟨h, by rintro _ ⟨⟩; exact hs⟩

theorem Span.Clean.paints {s : Span} (h : s.Clean) : Paints (s.shown false) (s.shown true) := by
  obtain ⟨style, t⟩ := s
  cases style with
  | none => exact .of_notMem h.text
  | some style => exact Style.paints_paint (h.style style rfl) h.text

namespace Framed

/-- A line of a frame whose spans are all clean. -/
def Clean : Framed → Prop
  | .rule => True
  | .row r => ∀ s ∈ r, s.Clean

theorem clean_text {t : Text} (h : escape ∉ t) : (text t).Clean :=
  List.forall_mem_singleton.mpr (Span.clean_plain h)

theorem clean_centered (inner : Nat) {t : Text} (h : escape ∉ t) : (centered inner t).Clean :=
  List.forall_mem_cons.mpr ⟨Span.clean_plain (escape_notMem_blanks _),
    List.forall_mem_singleton.mpr (Span.clean_styled (by decide) h)⟩

theorem paints_bar {left stroke right : Char} (hl : left ≠ escape) (hs : stroke ≠ escape)
    (hr : right ≠ escape) (inner : Nat) :
    Paints (bar false left stroke right inner) (bar true left stroke right inner) := by
  refine Style.paints_paint (by decide) ?_
  rw [List.mem_append, List.mem_cons, List.mem_replicate, List.mem_singleton]
  rintro ((h | ⟨-, h⟩) | h)
  exacts [hl h.symm, hs h.symm, hr h.symm]

theorem Clean.paints_line {f : Framed} (h : f.Clean) (inner : Nat) :
    Paints (f.line false inner) (f.line true inner) := by
  cases f with
  | rule => exact paints_bar (by decide) (by decide) (by decide) inner
  | row r =>
    have hside : Paints (frameStyle.paint false ['║']) (frameStyle.paint true ['║']) :=
      Style.paints_paint (by decide) (by decide)
    have hblank : Paints [' '] [' '] := .of_notMem (by decide)
    have hrow : Paints (r.shown false) (r.shown true) := Paints.flatMap fun s hs => (h s hs).paints
    have hfill := Paints.of_notMem (escape_notMem_blanks (inner - (width r.plain + 1)))
    exact ((hside.append (hblank.append hrow)).append hfill).append hside

end Framed

/-- A frame is the same with and without colours. -/
theorem paints_frame (width : Nat) {content : List Framed} (h : ∀ f ∈ content, f.Clean) :
    Paints (stacked (frame false width content)) (stacked (frame true width content)) := by
  have hstroke : '═' ≠ escape := by decide
  have hbar (left right : Char) (hl : left ≠ escape) (hr : right ≠ escape) :=
    Framed.paints_bar hl hstroke hr (inside width)
  have hlines : List.Forall₂ Paints (content.map (Framed.line false (inside width)))
      (content.map (Framed.line true (inside width))) := by
    rw [List.forall₂_map_left_iff, List.forall₂_map_right_iff, List.forall₂_same]
    exact fun f hf => (h f hf).paints_line _
  refine Paints.stacked ?_
  rw [frame, frame]
  exact List.rel_append (.cons (hbar '╔' '╗' (by decide) (by decide)) hlines)
    (.cons (hbar '╚' '╝' (by decide) (by decide)) .nil)

end LineShell.Text

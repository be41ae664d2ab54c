import LineShell.Proofs.Line.Seam
import Mathlib.Data.List.Chain

/-! Lines without escapes and redirections. Each of their characters is one step of the reading, so
that the quotation which is open behind a line is found character by character, and words without
letters are made of empty quotes. -/

namespace LineShell.Line

/-- A character that is neither a backslash nor part of the sign of a redirection. -/
def IsOrdinary (c : Char) : Prop :=
  c ≠ '\\' ∧ c ≠ '<' ∧ c ≠ '>'

instance (c : Char) : Decidable (IsOrdinary c) := by
  unfold IsOrdinary; infer_instance

/-- The last character of a text is a blank outside quotes. -/
def EndsInBlank (t : Text) : Prop :=
  ∃ front c, t = front ++ [c] ∧ Text.isBlank c = true ∧ modeAfter .bare front = (.bare, false)

/-- Quotations with nothing in them, one next to the other. -/
inductive EmptyQuotes : Text → Prop
  | nil : EmptyQuotes []
  | single {word : Text} (h : EmptyQuotes word) : EmptyQuotes ('\'' :: '\'' :: word)
  | double {word : Text} (h : EmptyQuotes word) : EmptyQuotes ('"' :: '"' :: word)

/-- No word of a line that a blank follows is made of empty quotes only. -/
def NoEmptyWord (line : Text) : Prop :=
  ∀ front word c rest, line = front ++ word ++ c :: rest → front = [] ∨ EndsInBlank front →
    Text.isBlank c = true → word ≠ [] → ¬EmptyQuotes word

theorem NoEmptyWord.of_append {line more : Text} (h : NoEmptyWord (line ++ more)) :
    NoEmptyWord line := by
  intro front word c rest hline
  apply h front word c (rest ++ more)
  rw [hline, List.append_assoc, List.append_assoc, List.append_assoc, List.cons_append]

/-- What an ordinary character is, by the quotation that it stands in. -/
def lexemeIn (mode : Mode) (c : Char) : Option Lexeme :=
  match (roleIn mode c).2 with
  | .quote => none
  | .blank => some .gap
  | _ => some (.letter c)

/-- The quotation that is open behind ordinary characters. -/
def quotation (mode : Mode) (t : Text) : Mode :=
  t.foldl (fun m c => (roleIn m c).1) mode

section Ordinary

variable {mode : Mode} {c : Char} {t : Text}

theorem ofPair?_of_ordinary (hc : IsOrdinary c) {d : Char} (hd : IsOrdinary d) :
    Operator.ofPair? c d = none := by
  unfold Operator.ofPair?
  split <;> simp_all [IsOrdinary]

theorem ofChar?_of_ordinary (hc : IsOrdinary c) : Operator.ofChar? c = none := by
  unfold Operator.ofChar?
  split <;> simp_all [IsOrdinary]

/-- A step over an ordinary character takes it alone. -/
theorem step_ordinary (mode : Mode) (h : ∀ d ∈ c :: t, IsOrdinary d) :
    ∃ ms, Step mode (c :: t) ms (lexemeIn mode c) (roleIn mode c).1 t := by
  have hc := h c List.mem_cons_self
  obtain ⟨ms, lexeme, mode', rest, hstep⟩ := exists_step mode (List.cons_ne_nil c t)
  cases hstep with
  | dangling => exact absurd rfl hc.1
  | escape => exact absurd rfl hc.1
  | quote hrole => exact ⟨_, by rw [lexemeIn, hrole]; exact .quote hrole⟩
  | quoted hne hrole => exact ⟨_, by rw [lexemeIn, hrole]; exact .quoted hne hrole⟩
  | blank hblank =>
    exact ⟨_, by rw [lexemeIn, (roleIn_blank hblank).2]; exact .blank hblank⟩
  | pair hop =>
    have hd := h _ (List.mem_cons_of_mem c List.mem_cons_self)
    rw [ofPair?_of_ordinary hc hd] at hop
    cases hop
  | lone hop =>
    rw [ofChar?_of_ordinary hc] at hop
    cases hop
  | letter hne hrole hop hnext =>
    exact ⟨_, by rw [lexemeIn, hrole]; exact .letter hne hrole hop hnext⟩

theorem lexemes_ordinary (mode : Mode) (h : ∀ d ∈ c :: t, IsOrdinary d) :
    lexemes mode (c :: t) = (lexemeIn mode c).toList ++ lexemes (roleIn mode c).1 t := by
  obtain ⟨ms, hstep⟩ := step_ordinary mode h
  exact hstep.lexemes

theorem modeAfter_ordinary (mode : Mode) (h : ∀ d ∈ t, IsOrdinary d) :
    modeAfter mode t = (quotation mode t, false) := by
  induction t generalizing mode with
  | nil => rfl
  | cons c t ih =>
    obtain ⟨ms, hstep⟩ := step_ordinary mode h
    have hc := h c List.mem_cons_self
    rw [hstep.modeAfter (by simp [hc.1]), ih _ fun d hd => h d (List.mem_cons_of_mem c hd)]
    rfl

theorem quotation_append (mode : Mode) (a b : Text) :
    quotation mode (a ++ b) = quotation (quotation mode a) b :=
  List.foldl_append

theorem lexemes_append (mode : Mode) {a b : Text} (ha : ∀ d ∈ a, IsOrdinary d)
    (hb : ∀ d ∈ b, IsOrdinary d) :
    lexemes mode (a ++ b) = lexemes mode a ++ lexemes (quotation mode a) b := by
  induction a generalizing mode with
  | nil => rfl
  | cons c a ih =>
    have hall : ∀ d ∈ c :: (a ++ b), IsOrdinary d := by
      intro d hd
      rw [← List.cons_append, List.mem_append] at hd
      exact hd.elim (ha d) (hb d)
    rw [List.cons_append, lexemes_ordinary mode hall, lexemes_ordinary mode ha,
      ih _ fun d hd => ha d (List.mem_cons_of_mem c hd), List.append_assoc]
    rfl

/-- A character that goes into no lexeme opens or closes a quotation. -/
theorem roleIn_of_lexemeIn (h : lexemeIn mode c = none) :
    roleIn mode c = ((roleIn mode c).1, .quote) := by
  refine Prod.ext rfl ?_
  unfold lexemeIn at h
  split at h <;> simp_all

/-- Characters that go into no lexeme and leave no quotation open are empty quotes: the first one
opens a quotation, and the next one cannot but close it. -/
theorem emptyQuotes_of_lexemes : ∀ {word : Text}, (∀ d ∈ word, IsOrdinary d) →
    lexemes .bare word = [] → quotation .bare word = .bare → EmptyQuotes word
  | [], _, _, _ => .nil
  | [c], hword, hnone, hclosed => by
    rw [lexemes_ordinary .bare hword, List.append_eq_nil_iff, Option.toList_eq_nil_iff] at hnone
    have hstays : (roleIn .bare c).1 = .bare := hclosed
    have hopens := quote_cases (roleIn_of_lexemeIn hnone.1)
    simp [hstays] at hopens
  | c :: d :: word, hword, hnone, hclosed => by
    have hrest : ∀ e ∈ d :: word, IsOrdinary e :=
      fun e he => hword e (List.mem_cons_of_mem c he)
    rw [lexemes_ordinary .bare hword, lexemes_ordinary _ hrest, List.append_eq_nil_iff,
      List.append_eq_nil_iff, Option.toList_eq_nil_iff, Option.toList_eq_nil_iff] at hnone
    obtain ⟨hc, hd, hnone⟩ := hnone
    have hends : quotation (roleIn (roleIn .bare c).1 d).1 word = .bare := hclosed
    have hopens := quote_cases (roleIn_of_lexemeIn hc)
    have hcloses := quote_cases (roleIn_of_lexemeIn hd)
    have hmore : (roleIn (roleIn .bare c).1 d).1 = .bare → EmptyQuotes word := by
      intro hbare
      rw [hbare] at hnone hends
      exact emptyQuotes_of_lexemes (fun e he => hrest e (List.mem_cons_of_mem d he)) hnone hends
    rcases hopens with ⟨rfl, ⟨-, hsingle⟩ | ⟨habsurd, -⟩⟩ | ⟨rfl, ⟨-, hdouble⟩ | ⟨habsurd, -⟩⟩
    · rw [hsingle] at hcloses hmore
      obtain ⟨rfl, hbare⟩ : d = '\'' ∧ (roleIn .single d).1 = .bare := by simpa using hcloses
      exact .single (hmore hbare)
    · cases habsurd
    · rw [hdouble] at hcloses hmore
      obtain ⟨rfl, hbare⟩ : d = '"' ∧ (roleIn .double d).1 = .bare := by simpa using hcloses
      exact .double (hmore hbare)
    · cases habsurd

theorem EndsInBlank.quotation (h : EndsInBlank t) (ht : ∀ d ∈ t, IsOrdinary d) :
    quotation .bare t = .bare := by
  obtain ⟨front, c, rfl, hblank, hmode⟩ := h
  rw [modeAfter_ordinary .bare fun d hd => ht d (List.mem_append_left [c] hd)] at hmode
  rw [quotation_append, (Prod.mk.inj hmode).1]
  exact congrArg Prod.fst (roleIn_blank hblank).2

end Ordinary

section Blank

variable {front : Text} {c : Char} (hblank : Text.isBlank c = true)
  (hmode : modeAfter .bare front = (.bare, false))
include hblank hmode

theorem tokenize_blank_append (b : Text) :
    tokenize (front ++ [c] ++ b) = tokenize front ++ tokenize b := by
  apply (tokenize_seam_iff front).mp hmode
  exact ⟨List.cons_ne_nil c [], by simp [hblank]⟩

theorem tokenize_blank : tokenize (front ++ [c]) = tokenize front := by
  have h := tokenize_blank_append hblank hmode []
  rwa [List.append_nil, show tokenize [] = [] from rfl, List.append_nil] at h

end Blank

/-- Behind a blank outside quotes a line is read afresh. -/
theorem EndsInBlank.tokenize_append {a : Text} (h : EndsInBlank a) (b : Text) :
    tokenize (a ++ b) = tokenize a ++ tokenize b := by
  obtain ⟨front, c, rfl, hblank, hmode⟩ := h
  rw [tokenize_blank_append hblank hmode, tokenize_blank hblank hmode]

/-- A line in which no quotation mark stands behind itself has no empty quotes. -/
theorem NoEmptyWord.of_isChain {line : Text}
    (h : line.IsChain fun c d => c = d → c ≠ '\'' ∧ c ≠ '"') : NoEmptyWord line := by
  rintro front word c rest rfl - - hne hempty
  rw [List.append_assoc] at h
  have hword := h.right_of_append
  cases hempty with
  | nil => exact hne rfl
  | single => exact ((List.isChain_cons_cons.mp hword).1 rfl).1 rfl
  | double => exact ((List.isChain_cons_cons.mp hword).1 rfl).2 rfl

end LineShell.Line

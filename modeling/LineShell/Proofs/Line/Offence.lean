import LineShell.Proofs.Line.Redirection

/-! Which tokens say a command with at most one file for its output, and what the others are
refused for. An offence is looked for from the left, behind tokens that are still in order. -/

namespace LineShell

/-- The operators among tokens. -/
def Token.operator? : Token → Option Operator
  | .word _ => none
  | .operator op => some op

namespace Line

/-- The operators that send the output of a command to a file. -/
def ToFile (op : Operator) : Prop :=
  op = .overwrite ∨ op = .append

/-- Tokens in order: words, and among them at most one output operator with its target. -/
inductive InOrder : List Token → List Text → Option (Operator × Text) → Prop
  | plain (words : List Text) : InOrder (words.map .word) words none
  | redirected (before after : List Text) {op : Operator} (h : ToFile op) (target : Text) :
    InOrder (before.map .word ++ .operator op :: .word target :: after.map .word)
      (before ++ after) (some (op, target))

/-- The redirection to the target of an output operator. -/
def redirectionTo : Option (Operator × Text) → Redirection
  | none => { output := none, append := false, input := none }
  | some (op, target) => { output := some target, append := op = .append, input := none }

/-- What the first tokens of a list are refused for, behind an output operator if `seen` holds
one. -/
inductive Offence (seen : Option Operator) : List Token → LineError → Prop
  | planned {op : Operator} (h : op ∈ [.input, .errors, .both]) (rest : List Token) :
    Offence seen (.operator op :: rest) (.notImplemented op.text)
  | refused {op : Operator}
    (h : op ∈ [.duplicateOutput, .duplicateInput, .readWrite, .hereDocument])
    (rest : List Token) : Offence seen (.operator op :: rest) (.unsupported op.text)
  | untargeted {op : Operator} (h : ToFile op) (rest : List Token)
    (hnext : ∀ w, rest.head? ≠ some (.word w)) :
    Offence seen (.operator op :: rest) (.missingTarget op.text)
  | repeated {first op : Operator} (hseen : seen = some first) (h : ToFile op) (w : Text)
    (rest : List Token) :
    Offence seen (.operator op :: .word w :: rest) (.duplicate first.text op.text)

/-- Tokens in order up to an offence. -/
def RefusedFor (tokens : List Token) (e : LineError) : Prop :=
  ∃ before rest words redirected, tokens = before ++ rest ∧ InOrder before words redirected ∧
    Offence (redirected.map (·.1)) rest e

theorem standing_toFile {op : Operator} (h : ToFile op) :
    standing op = .output (op = .append) := by
  rcases h with rfl | rfl <;> rfl

/-- An output operator with its target, behind words. -/
theorem resolve_redirection (before : List Text) {op : Operator} (h : ToFile op) (target : Text)
    (rest : List Token) :
    resolve (before.map .word ++ .operator op :: .word target :: rest) =
      (resolveAfter (some op) rest).map fun (words, _) =>
        (before ++ words, redirectionTo (some (op, target))) := by
  simp only [resolve, resolveAfter_words, resolveAfter, standing_toFile h]
  cases resolveAfter (some op) rest <;> rfl

theorem resolve_inOrder {tokens : List Token} {words : List Text}
    {redirected : Option (Operator × Text)} (h : InOrder tokens words redirected) :
    resolve tokens = .ok (words, redirectionTo redirected) := by
  cases h with
  | plain words => exact resolve_words words
  | @redirected before after op hop target =>
    have hafter := resolveAfter_words (some op) after []
    rw [List.append_nil, resolveAfter] at hafter
    rw [resolve_redirection before hop, hafter]
    simp [Except.map]

theorem resolveAfter_offence {seen : Option Operator} {rest : List Token} {e : LineError}
    (h : Offence seen rest e) : resolveAfter seen rest = .error e := by
  cases h with
  | planned hop rest =>
    simp only [List.mem_cons, List.not_mem_nil, or_false] at hop
    rcases hop with rfl | rfl | rfl <;> rw [resolveAfter] <;> rfl
  | refused hop rest =>
    simp only [List.mem_cons, List.not_mem_nil, or_false] at hop
    rcases hop with rfl | rfl | rfl | rfl <;> rw [resolveAfter] <;> rfl
  | untargeted hop rest hnext =>
    simp only [resolveAfter, standing_toFile hop]
    split
    case h_1 w rest => exact absurd rfl (hnext w)
    case h_2 => rfl
  | repeated hseen hop w rest => simp only [resolveAfter, standing_toFile hop, hseen]

theorem resolve_refusedFor {tokens : List Token} {e : LineError} (h : RefusedFor tokens e) :
    resolve tokens = .error e := by
  obtain ⟨before, rest, words, redirected, rfl, hbefore, hoffence⟩ := h
  cases hbefore with
  | plain words =>
    have herror : resolveAfter none rest = .error e := resolveAfter_offence hoffence
    rw [resolve, resolveAfter_words, herror]
    rfl
  | @redirected before after op hop target =>
    have herror : resolveAfter (some op) rest = .error e := resolveAfter_offence hoffence
    rw [List.append_assoc, List.cons_append, List.cons_append, resolve_redirection before hop,
      resolveAfter_words, herror]
    rfl

/-- The words at the front of tokens, up to an operator or the end. -/
theorem exists_words (tokens : List Token) :
    ∃ (words : List Text) (rest : List Token), tokens = words.map .word ++ rest ∧
      (rest = [] ∨ ∃ op tail, rest = .operator op :: tail) := by
  induction tokens with
  | nil => exact ⟨[], [], rfl, .inl rfl⟩
  | cons token tokens ih =>
    cases token with
    | word w =>
      obtain ⟨words, rest, rfl, hrest⟩ := ih
      exact ⟨w :: words, rest, rfl, hrest⟩
    | operator op => exact ⟨[], .operator op :: tokens, rfl, .inr ⟨op, tokens, rfl⟩⟩

/-- An operator is an offence, or it is an output operator that a word follows. -/
theorem offence_or_target (seen : Option Operator) (op : Operator) (tail : List Token) :
    (∃ e, Offence seen (.operator op :: tail) e) ∨
      ToFile op ∧ ∃ target rest, tail = .word target :: rest := by
  have htarget (h : ToFile op) : (∃ e, Offence seen (.operator op :: tail) e) ∨
      ToFile op ∧ ∃ target rest, tail = .word target :: rest := by
    cases tail with
    | nil => exact .inl ⟨_, .untargeted h [] (by simp)⟩
    | cons token rest =>
      cases token with
      | word target => exact .inr ⟨h, target, rest, rfl⟩
      | operator next => exact .inl ⟨_, .untargeted h _ (by simp)⟩
  cases op with
  | overwrite => exact htarget (.inl rfl)
  | append => exact htarget (.inr rfl)
  | input | errors | both => exact .inl ⟨_, .planned (by simp) tail⟩
  | duplicateOutput | duplicateInput | readWrite | hereDocument =>
    exact .inl ⟨_, .refused (by simp) tail⟩

/-- Behind an output operator every operator is an offence. -/
theorem exists_offence (first op : Operator) (tail : List Token) :
    ∃ e, Offence (some first) (.operator op :: tail) e := by
  rcases offence_or_target (some first) op tail with h | ⟨h, target, rest, rfl⟩
  · exact h
  · exact ⟨_, .repeated rfl h target rest⟩

/-- Tokens are in order, or there is an offence behind some that are. -/
theorem inOrder_or_refusedFor (tokens : List Token) :
    (∃ words redirected, InOrder tokens words redirected) ∨ ∃ e, RefusedFor tokens e := by
  obtain ⟨before, rest, rfl, rfl | ⟨op, tail, rfl⟩⟩ := exists_words tokens
  · exact .inl ⟨before, none, by simpa using .plain before⟩
  rcases offence_or_target none op tail with ⟨e, he⟩ | ⟨hop, target, rest, rfl⟩
  · exact .inr ⟨e, _, _, _, _, rfl, .plain before, he⟩
  obtain ⟨after, rest, rfl, rfl | ⟨op', tail, rfl⟩⟩ := exists_words rest
  · exact .inl ⟨_, _, by simpa using .redirected before after hop target⟩
  · obtain ⟨e, he⟩ := exists_offence op op' tail
    refine .inr ⟨e, _, _, _, _, ?_, .redirected before after hop target, he⟩
    simp

/-- Tokens are in order, or refused whatever follows them, or they lack a target at their end. -/
theorem inOrder_or_refused_or_untargeted (tokens : List Token) :
    (∃ words redirected, InOrder tokens words redirected) ∨
      (∃ e, ∀ more, RefusedFor (tokens ++ more) e) ∨
      ∃ before op words redirected, tokens = before ++ [.operator op] ∧ ToFile op ∧
        InOrder before words redirected := by
  rcases inOrder_or_refusedFor tokens with horder | ⟨e, he⟩
  · exact .inl horder
  obtain ⟨before, rest, words, redirected, rfl, hbefore, hoffence⟩ := he
  have refused (rest' : List Token) (e' : LineError)
      (h : ∀ more, Offence (redirected.map (·.1)) (rest' ++ more) e') :
      ∃ e, ∀ more, RefusedFor (before ++ rest' ++ more) e :=
    ⟨e', fun more => ⟨before, rest' ++ more, words, redirected, by simp, hbefore, h more⟩⟩
  cases hoffence with
  | planned hop rest => exact .inr (.inl (refused _ _ fun more => .planned hop (rest ++ more)))
  | refused hop rest => exact .inr (.inl (refused _ _ fun more => .refused hop (rest ++ more)))
  | repeated hseen hop w rest =>
    exact .inr (.inl (refused _ _ fun more => .repeated hseen hop w (rest ++ more)))
  | @untargeted op hop rest hnext =>
    cases rest with
    | nil => exact .inr (.inr ⟨before, op, words, redirected, rfl, hop, hbefore⟩)
    | cons token rest =>
      exact .inr (.inl (refused _ _ fun more => .untargeted hop (token :: rest ++ more) hnext))

/-- A further word leaves tokens in order. -/
theorem InOrder.concat {tokens : List Token} {words : List Text}
    {redirected : Option (Operator × Text)} (h : InOrder tokens words redirected) (w : Text) :
    InOrder (tokens ++ [.word w]) (words ++ [w]) redirected := by
  cases h with
  | plain words => simpa using InOrder.plain (words ++ [w])
  | redirected before after hop target =>
    simpa using InOrder.redirected before (after ++ [w]) hop target

/-- An output operator with a target behind tokens in order is the first one or one too many,
whatever the target. -/
theorem resolve_targeted {before : List Token} {words : List Text}
    {redirected : Option (Operator × Text)} (h : InOrder before words redirected) {op : Operator}
    (hop : ToFile op) (target : Text) :
    resolve (before ++ [.operator op, .word target]) =
      match redirected with
      | none => .ok (words, redirectionTo (some (op, target)))
      | some (first, _) => .error (.duplicate first.text op.text) := by
  cases h with
  | plain words =>
    simpa using resolve_inOrder (.redirected words [] hop target)
  | @redirected front after first hfirst target' =>
    exact resolve_refusedFor ⟨_, _, _, _, rfl, .redirected front after hfirst target',
      .repeated rfl hop target []⟩

theorem resolve_eq_ok_iff {tokens : List Token} {words : List Text} {r : Redirection} :
    resolve tokens = .ok (words, r) ↔
      ∃ redirected, InOrder tokens words redirected ∧ r = redirectionTo redirected := by
  constructor
  · intro h
    rcases inOrder_or_refusedFor tokens with ⟨words', redirected, horder⟩ | ⟨e, he⟩
    · rw [resolve_inOrder horder, Except.ok.injEq, Prod.mk.injEq] at h
      obtain ⟨rfl, rfl⟩ := h
      exact ⟨redirected, horder, rfl⟩
    · rw [resolve_refusedFor he] at h
      cases h
  · rintro ⟨redirected, horder, rfl⟩
    exact resolve_inOrder horder

theorem resolve_eq_error_iff {tokens : List Token} {e : LineError} :
    resolve tokens = .error e ↔ RefusedFor tokens e := by
  refine ⟨fun h => ?_, resolve_refusedFor⟩
  rcases inOrder_or_refusedFor tokens with ⟨words, redirected, horder⟩ | ⟨e', he⟩
  · rw [resolve_inOrder horder] at h
    cases h
  · rw [resolve_refusedFor he, Except.error.injEq] at h
    exact h ▸ he

/-- No operator but an output operator, no two of them, and a word behind each. -/
structure WellFormed (tokens : List Token) : Prop where
  toFile : ∀ op, .operator op ∈ tokens → ToFile op
  atMostOne : (tokens.filterMap Token.operator?).length ≤ 1
  targeted : ∀ before op rest, tokens = before ++ .operator op :: rest →
    ∃ target rest', rest = .word target :: rest'

theorem operators_words (words : List Text) :
    (words.map Token.word).filterMap Token.operator? = [] := by
  rw [List.filterMap_map, List.filterMap_eq_nil_iff]
  exact fun w _ => rfl

/-- An operator stands at one place only where the tokens before it and behind it are words. -/
theorem operator_place {before after : List Text} {op : Operator} {target : Text}
    {before' rest : List Token} {op' : Operator}
    (h : before.map .word ++ .operator op :: .word target :: after.map .word =
      before' ++ .operator op' :: rest) : rest = .word target :: after.map .word := by
  induction before generalizing before' with
  | nil =>
    cases before' with
    | nil => simpa using (List.cons.inj h).2.symm
    | cons token before' =>
      have hmem : Token.operator op' ∈ Token.word target :: after.map .word := by
        simp [(List.cons.inj h).2]
      simp at hmem
  | cons w before ih =>
    cases before' with
    | nil => cases (List.cons.inj h).1
    | cons token before' => exact ih (List.cons.inj h).2

theorem InOrder.wellFormed {tokens : List Token} {words : List Text}
    {redirected : Option (Operator × Text)} (h : InOrder tokens words redirected) :
    WellFormed tokens := by
  cases h with
  | plain words =>
    refine ⟨by simp, by rw [operators_words]; simp, fun before op rest heq => ?_⟩
    have hmem : Token.operator op ∈ words.map Token.word := by simp [heq]
    simp at hmem
  | @redirected before after op hop target =>
    refine ⟨fun op' hmem => ?_, ?_, fun before' op' rest heq => ?_⟩
    · obtain rfl : op' = op := by simpa using hmem
      exact hop
    · simp only [List.filterMap_append, List.filterMap_cons, operators_words, Token.operator?]
      simp
    · exact ⟨target, after.map .word, operator_place heq⟩

/-- Well-formed tokens are refused for nothing. -/
theorem WellFormed.not_refusedFor {tokens : List Token} (h : WellFormed tokens) {e : LineError} :
    ¬ RefusedFor tokens e := by
  rintro ⟨before, rest, words, redirected, rfl, hbefore, hoffence⟩
  have hop (op : Operator) (tail : List Token) (heq : rest = .operator op :: tail) : ToFile op :=
    h.toFile op (by simp [heq])
  cases hoffence with
  | @planned op hplanned tail =>
    rcases hop op tail rfl with rfl | rfl <;> simp at hplanned
  | @refused op hrefused tail =>
    rcases hop op tail rfl with rfl | rfl <;> simp at hrefused
  | @untargeted op _ tail hnext =>
    obtain ⟨target, rest', rfl⟩ := h.targeted before op tail rfl
    exact hnext target rfl
  | @repeated first op hseen _ w tail =>
    cases hbefore with
    | plain words => cases hseen
    | redirected before after _ target =>
      have hone := h.atMostOne
      simp only [List.filterMap_append, List.filterMap_cons, Token.operator?, List.length_append,
        List.length_cons] at hone
      omega

/-- What the tokens of a line come to. They are accepted just if they are well-formed, and then the
arguments are their words without the target. Any others are refused for the leftmost offence. -/
theorem resolve_grammar (tokens : List Token) :
    ((∃ answer, resolve tokens = .ok answer) ↔ WellFormed tokens) ∧
      (∀ words r, resolve tokens = .ok (words, r) ↔
        ∃ redirected, InOrder tokens words redirected ∧ r = redirectionTo redirected) ∧
      ∀ e, resolve tokens = .error e ↔ RefusedFor tokens e := by
  refine ⟨⟨?_, fun h => ?_⟩, fun words r => resolve_eq_ok_iff, fun e => resolve_eq_error_iff⟩
  · rintro ⟨⟨words, r⟩, h⟩
    obtain ⟨redirected, horder, -⟩ := resolve_eq_ok_iff.mp h
    exact horder.wellFormed
  · rcases inOrder_or_refusedFor tokens with ⟨words, redirected, horder⟩ | ⟨e, he⟩
    · exact ⟨_, resolve_inOrder horder⟩
    · exact absurd he h.not_refusedFor

end Line

end LineShell

import LineShell.Line.Invocation
import LineShell.Proofs.Line.Quoting

/-! What is told apart in a line that sends its output to a file. The operator and its target may
stand at any place behind the name of the command, and the words keep their order. -/

namespace LineShell.Line

/-- Words in front of a redirection are words of the command. -/
theorem resolveAfter_words (seen : Option Operator) (words : List Text) (tokens : List Token) :
    resolveAfter seen (words.map .word ++ tokens) =
      (resolveAfter seen tokens).map fun (rest, redirection) => (words ++ rest, redirection) := by
  induction words with
  | nil =>
    rw [List.map_nil, List.nil_append]
    cases resolveAfter seen tokens <;> rfl
  | cons w words ih =>
    rw [List.map_cons, List.cons_append, resolveAfter, ih]
    cases resolveAfter seen tokens <;> rfl

theorem resolve_words (words : List Text) :
    resolve (words.map .word) = .ok (words, {}) := by
  have h := resolveAfter_words none words []
  rw [List.append_nil] at h
  rw [resolve, h, resolveAfter]
  simp [Except.map]

/-- The redirection may stand anywhere among the words. -/
theorem resolve_redirected (before after : List Text) (target : Text) :
    resolve (before.map .word ++ [.operator .overwrite, .word target] ++ after.map .word) =
      .ok (before ++ after, { output := some target, append := false }) := by
  have hafter := resolveAfter_words (some .overwrite) after []
  rw [List.append_nil, resolveAfter] at hafter
  rw [resolve, List.append_assoc, resolveAfter_words, List.cons_append, List.cons_append,
    List.nil_append, resolveAfter]
  simp [standing, hafter, Except.map]

theorem lexemes_name {name : Text} (h : ∀ c ∈ name, IsPlain c) (rest : Text) :
    lexemes .bare (name ++ rest) = name.map .letter ++ lexemes .bare rest := by
  induction name with
  | nil => rfl
  | cons c name ih =>
    rw [List.cons_append, lexemes_plain (h c (by simp)), ih fun d hd => h d (by simp [hd])]
    rfl

/-- No written token is an empty word where none of those that are meant is. -/
private theorem written_ne_nil {items : List (Written × Text)} {tokens : List Token}
    (hitems : items.map (·.1.token) = tokens) (h : .word [] ∉ tokens) :
    ∀ i ∈ items, i.1.token ≠ .word [] := by
  rintro i hi hnil
  exact h (hitems ▸ hnil ▸ List.mem_map_of_mem hi)

section CommandLine

variable {name gap : Text} (hne : name ≠ []) (hplain : ∀ c ∈ name, IsPlain c) (hgap : IsGap gap)
  (items : List (Written × Text)) (hgaps : ∀ i ∈ items.dropLast, IsGap i.2)

include hne hplain hgap hgaps

/-- A bare name of a command, with written tokens behind it. -/
theorem tokenize_name (hwords : ∀ i ∈ items, i.1.token ≠ .word []) :
    tokenize (name ++ (gap ++ write items)) = .word name :: items.map (·.1.token) := by
  rw [tokenize, lexemes_name hplain, group_letters name hne (hgap.endsHere _),
    group_lexemes_blanks gap hgap.2, group_lexemes_write_all items hwords hgaps]

/-- A command with nothing but words behind its name. -/
theorem parse_words (words : List Text) (hitems : items.map (·.1.token) = words.map .word)
    (hwords : ∀ w ∈ words, w ≠ []) :
    parse (name ++ (gap ++ write items)) = .ok ({ name, arguments := words }, {}) := by
  have htokens := written_ne_nil hitems (by simpa using fun h => hwords [] h rfl)
  rw [parse, tokenize_name hne hplain hgap items hgaps htokens, hitems, ← List.map_cons,
    resolve_words]
  rfl

/-- A command whose output goes to a file, with the redirection anywhere behind its name. -/
theorem parse_redirected {before after : List Text} {target : Text}
    (hitems : items.map (·.1.token) =
      before.map .word ++ [.operator .overwrite, .word target] ++ after.map .word)
    (hwords : ∀ w ∈ target :: (before ++ after), w ≠ []) :
    parse (name ++ (gap ++ write items)) =
      .ok ({ name, arguments := before ++ after },
        { output := some target, append := false }) := by
  have htokens := written_ne_nil hitems (by
    simpa [or_comm, or_assoc, or_left_comm] using fun h => hwords [] h rfl)
  have hresolve := resolve_redirected (name :: before) after target
  rw [List.map_cons, List.cons_append, List.cons_append] at hresolve
  rw [parse, tokenize_name hne hplain hgap items hgaps htokens, hitems, hresolve]
  rfl

end CommandLine

end LineShell.Line

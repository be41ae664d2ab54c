import LineShell.Glob.PatternError

/-! Search patterns for names. Besides characters that stand for themselves there are `?`, `*`, and
sets in brackets. ASCII letters match in either case. -/

namespace LineShell.Glob

/-- A part of a set: a character, or all from one character to another. -/
inductive Part where
  | one (c : Char)
  | range (first last : Char)
  deriving DecidableEq, Repr

inductive Token where
  | char (c : Char)
  | any
  | sequence
  | within (parts : List Part)
  | except (parts : List Part)
  deriving DecidableEq, Repr

abbrev Pattern := List Token

/-- The parts of a set. A dash between two characters makes a range. -/
def parts : Text → List Part
  | a :: '-' :: b :: rest => .range a b :: parts rest
  | a :: rest => .one a :: parts rest
  | [] => []

/-- The set behind an opening bracket, and what follows its closing one. The first character of a
set is never its end. -/
def bracketed : Text → Option (Token × Text)
  | '!' :: first :: rest =>
    if rest.contains ']' then
      some (.except (parts (first :: rest.takeWhile (· ≠ ']'))), (rest.dropWhile (· ≠ ']')).tail)
    else none
  | first :: rest =>
    if first ≠ '!' ∧ rest.contains ']' then
      some (.within (parts (first :: rest.takeWhile (· ≠ ']'))), (rest.dropWhile (· ≠ ']')).tail)
    else none
  | [] => none

theorem length_of_bracketed {t : Text} {token : Token} {rest : Text}
    (h : bracketed t = some (token, rest)) : rest.length < t.length := by
  have tail (l : Text) : (l.dropWhile (· ≠ ']')).tail.length ≤ l.length := by
    simpa using Nat.le_trans (Nat.sub_le _ 1) (List.dropWhile_sublist (· ≠ ']')).length_le
  unfold bracketed at h
  split at h
  · rename_i first rest'
    split at h <;> simp only [Option.some.injEq, Prod.mk.injEq, reduceCtorEq] at h
    have := tail rest'
    rw [← h.2]
    simp only [List.length_cons]
    omega
  · rename_i first rest' _
    split at h <;> simp only [Option.some.injEq, Prod.mk.injEq, reduceCtorEq] at h
    have := tail rest'
    rw [← h.2]
    simp only [List.length_cons]
    omega
  · simp at h

/-- The tokens of the rest of a pattern, behind `position` characters of which `before` is the
last. Two stars stand for directories and have to be a component of a path. A name lies in no
directory of its own, so in front of more they match nothing, and at the end anything. -/
def tokens (position : Nat) (before : Option Char) : Text → Except PatternError Pattern
  | [] => .ok []
  | '?' :: rest => (tokens (position + 1) (some '?') rest).map (.any :: ·)
  | '*' :: '*' :: '*' :: _ => .error { position := position + 2, fault := .wildcards }
  | '*' :: '*' :: rest =>
    if before = none ∨ before = some '/' then
      match rest with
      | [] | ['/'] => .ok [.sequence]
      | '/' :: rest => tokens (position + 3) (some '/') rest
      | _ => .error { position := position + 2, fault := .recursiveWildcards }
    else .error { position := position - 1, fault := .recursiveWildcards }
  | '*' :: rest => (tokens (position + 1) (some '*') rest).map (.sequence :: ·)
  | '[' :: rest =>
    match h : bracketed rest with
    | some (set, after) =>
      have := length_of_bracketed h
      (tokens (position + 1 + (rest.length - after.length)) (some ']') after).map (set :: ·)
    | none => .error { position, fault := .range }
  | c :: rest => (tokens (position + 1) (some c) rest).map (.char c :: ·)
termination_by t => t.length
decreasing_by all_goals simp only [List.length_cons]; omega

/-- The pattern that a text is. -/
def Pattern.parse (t : Text) : Except PatternError Pattern :=
  tokens 0 none t

/-- Equality of characters, with ASCII letters equal in either case. -/
def sameChar (a b : Char) : Bool :=
  a = b || (a.isAlpha && a.toLower = b.toLower)

/-- Whether a set has a character by one of its parts. A range between two letters holds the
letters between them in either case. -/
def Part.has (c : Char) : Part → Bool
  | .one a => sameChar c a
  | .range a b =>
    (a ≤ c && c ≤ b) ||
      (a.isAlpha && b.isAlpha && a.toLower ≤ c.toLower && c.toLower ≤ b.toLower)

/-- Whether a token matches one character. -/
def Token.accepts (c : Char) : Token → Bool
  | .char a => sameChar c a
  | .any => true
  | .sequence => false
  | .within parts => parts.any (·.has c)
  | .except parts => !parts.any (·.has c)

/-- A text and what is left of it after each of its characters. -/
def tails : Text → List Text
  | [] => [[]]
  | c :: rest => (c :: rest) :: tails rest

/-- What may be left to match after a token, for what was left before it, longest first. -/
def Token.leave (token : Token) (left : List Text) : List Text :=
  match token with
  | .sequence => left.head?.elim [] tails
  | token => left.filterMap fun
    | c :: rest => if token.accepts c then some rest else none
    | [] => none

/-- Whether a pattern matches a whole name. -/
def Pattern.accepts (p : Pattern) (name : Text) : Bool :=
  (p.foldl (fun left token => token.leave left) [name]).contains []

end LineShell.Glob

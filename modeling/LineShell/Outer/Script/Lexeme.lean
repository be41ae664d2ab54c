import LineShell.Outer.Script.Syntax

/-! A script cut into words and operators. -/

namespace LineShell.Script

/-- A word or an operator. An operator that redirects may have a descriptor in front of it. -/
inductive Lexeme where
  | word (w : Word)
  | operator (text : Text)
  | redirect (descriptor : Option Nat) (text : Text)
  /-- Nothing can be made of what follows. -/
  | wrong (message : Text)
  /-- The end of the script. -/
  | finish
  deriving DecidableEq, Repr

namespace Lexeme

/-- What a text stands in: nothing, double quotes, or a document. -/
inductive Within where
  | nothing
  | double
  | document
  deriving DecidableEq, Repr

def isGap (c : Char) : Bool :=
  c = ' ' || c = '\t'

/-- The characters that end a word. -/
def endsWord (c : Char) : Bool :=
  isGap c || "\n;&|<>()".toList.contains c

def isNameStart (c : Char) : Bool :=
  c.isAlpha || c = '_'

def isNameRest (c : Char) : Bool :=
  isNameStart c || c.isDigit

/-- Whether a text can be the name of a variable. -/
def isName : Text → Bool
  | [] => false
  | c :: rest => isNameStart c && rest.all isNameRest

/-- A text up to the character that closes it, and what follows; `none` where nothing closes it.
`depth` more are open. What stands between two of the same quotes opens and closes nothing. -/
def enclosed (quotes : Text) (opens closes : Char) :
    Nat → Option Char → Text → Option (Text × Text)
  | _, _, [] => none
  | depth, some q, c :: rest =>
    let quote := if c = q then none else some q
    (enclosed quotes opens closes depth quote rest).map fun (inside, after) => (c :: inside, after)
  | _, none, ['\\'] => none
  | depth, none, '\\' :: c :: rest =>
    (enclosed quotes opens closes depth none rest).map fun (inside, after) =>
      ('\\' :: c :: inside, after)
  | depth, none, c :: rest =>
    if c = closes && depth = 0 then some ([], rest)
    else
      let quote := if quotes.contains c then some c else none
      let depth := if c = opens then depth + 1 else if c = closes then depth - 1 else depth
      (enclosed quotes opens closes depth quote rest).map fun (inside, after) =>
        (c :: inside, after)

/-- What is said where a parenthesis is not closed. -/
def openParenthesis : Text := "end of file unexpected (expecting \")\")"

/-- The part that a dollar sign begins, and what follows it. -/
def dollar (quoted : Bool) : Text → Except Text (Part × Text)
  | '(' :: rest =>
    match rest with
    | '(' :: inner =>
      match enclosed "\"'" '(' ')' 0 none inner with
      | some (inside, ')' :: after) => .ok (.arithmetic quoted inside, after)
      | some _ => output rest
      | none => .error "Missing '))'"
    | _ => output rest
  | '\x7b' :: rest =>
    match enclosed (if quoted then "\"" else "\"'") '\x7b' '\x7d' 0 none rest with
    | some (inside, after) => .ok (.parameter quoted inside, after)
    | none => .error "Missing '\x7d'"
  | c :: rest =>
    if isNameStart c then
      .ok (.parameter quoted (c :: rest.takeWhile isNameRest), rest.dropWhile isNameRest)
    else if c.isDigit || "?$#@*!-".toList.contains c then .ok (.parameter quoted [c], rest)
    else .ok (.literal quoted ['$'], c :: rest)
  | [] => .ok (.literal quoted ['$'], [])
where
  output (rest : Text) : Except Text (Part × Text) :=
    match enclosed "\"'" '(' ')' 0 none rest with
    | some (inside, after) => .ok (.output quoted inside, after)
    | none => .error openParenthesis

/-- The commands between backquotes, and what follows them. A backslash takes from a backquote, a
dollar sign or another backslash what it stands for. -/
def backquoted : Text → Option (Text × Text)
  | [] => none
  | '`' :: rest => some ([], rest)
  | '\\' :: c :: rest =>
    let kept := if "`$\\".toList.contains c then [c] else ['\\', c]
    (backquoted rest).map fun (inside, after) => (kept ++ inside, after)
  | c :: rest => (backquoted rest).map fun (inside, after) => (c :: inside, after)

/-- The characters that a backslash takes their meaning from, where not all. -/
def escapable : Within → Text
  | .double => "$`\"\\"
  | _ => "$`\\"

/-- A word, and what follows it. Each step takes at least one character, so as many steps as
characters are enough. -/
def scan : Nat → Within → Text → Except Text (Word × Text)
  | 0, _, t => .ok ([], t)
  | _, within, [] => if within = .double then .error "Unterminated quoted string" else .ok ([], [])
  | n + 1, within, c :: rest =>
    let more (p : Part) (within : Within) (rest : Text) : Except Text (Word × Text) :=
      (scan n within rest).map fun (w, after) => (p :: w, after)
    let quoted := within ≠ .nothing
    match c, rest with
    | '$', _ =>
      match dollar quoted rest with
      | .ok (p, after) => more p within after
      | .error m => .error m
    | '`', _ =>
      match backquoted rest with
      | some (inside, after) => more (.output quoted inside) within after
      | none => .error "EOF in backquote substitution"
    | '\\', '\n' :: rest => scan n within rest
    | '\\', d :: rest =>
      if quoted && !(escapable within).contains d then more (.literal true ['\\', d]) within rest
      else more (.literal true [d]) within rest
    | _, _ =>
      if c = '"' && within ≠ .document then
        more (.literal true []) (if within = .double then .nothing else .double) rest
      else if quoted then more (.literal true [c]) within rest
      else if c = '\'' then
        if rest.contains '\'' then
          more (.literal true (rest.takeWhile (· ≠ '\''))) within
            ((rest.dropWhile (· ≠ '\'')).drop 1)
        else .error "Unterminated quoted string"
      else if endsWord c then .ok ([], c :: rest)
      else more (.literal false [c]) within rest

/-- A text that is expanded like one between double quotes, in which those are nothing special. -/
def document (t : Text) : Except Text Word :=
  (scan (t.length + 1) .document t).map (·.1)

/-- The operators, longer ones first. -/
def operators : List String :=
  ["<<-", "&&", "||", ";;", "<<", ">>", ">&", "<&", ">|", "<>", "&", ";", "|", "(", ")", "<", ">",
   "\n"]

def redirects : List String :=
  ["<<-", "<<", ">>", ">&", "<&", ">|", "<>", "<", ">"]

def isRedirect (op : Text) : Bool :=
  (redirects.map String.toList).contains op

def operatorAt? (t : Text) : Option Text :=
  (operators.map String.toList).find? (·.isPrefixOf t)

/-- The descriptor that a word is when an operator follows it directly. -/
def descriptor? (w : Word) (after : Text) : Option Nat :=
  match w.plain? with
  | some [d] =>
    if d.isDigit && (after.head? = some '<' || after.head? = some '>') then
      some (d.toNat - '0'.toNat)
    else none
  | _ => none

/-- A document that is announced: its last line, whether tabs in front of lines are dropped, and
whether it is taken as it stands. -/
structure Announced where
  lastLine : Text
  dropsTabs : Bool
  asIs : Bool

/-- Cuts a line off. -/
def cutLine (t : Text) : Text × Text :=
  (t.takeWhile (· ≠ '\n'), (t.dropWhile (· ≠ '\n')).drop 1)

/-- The lines of an announced document, how many lines it takes, and what follows it. -/
def documentLines (a : Announced) : Nat → Text → Text × Nat × Text
  | 0, t => ([], 0, t)
  | _, [] => ([], 0, [])
  | n + 1, t =>
    let (line, rest) := cutLine t
    let line := if a.dropsTabs then line.dropWhile (· = '\t') else line
    if line = a.lastLine then ([], 1, rest)
    else
      let (more, count, rest) := documentLines a n rest
      (line ++ '\n' :: more, count + 1, rest)

/-- Announced documents one after another. -/
def documents : List Announced → Text → List (Except Text Word) × Nat × Text
  | [], t => ([], 0, t)
  | a :: others, t =>
    let (body, count, t) := documentLines a (t.length + 1) t
    let w : Except Text Word := if a.asIs then .ok [.literal true body] else document body
    let (more, counts, t) := documents others t
    (w :: more, count + counts, t)

/-- The number of line feeds in front of what is left of a text. -/
def linesTaken (t left : Text) : Nat :=
  (t.take (t.length - left.length)).count '\n'

/-- The lexemes of a script from a line on, each with the line that is reached behind it, and the
documents that the lexemes up to the end of the line have announced. `awaited` are those that have
been announced before. -/
def all : Nat → Nat → List Announced → Text →
    List (Nat × Lexeme) × List (Except Text Word)
  | 0, line, _, _ => ([(line, .finish)], [])
  | _, line, awaited, [] => ([(line, .finish)], awaited.map fun _ => .ok [])
  | n + 1, line, awaited, c :: rest =>
    let also (l : Lexeme) (line : Nat) (r : List (Nat × Lexeme) × List (Except Text Word)) :=
      ((line, l) :: r.1, r.2)
    if isGap c then all n line awaited rest
    else if c = '#' then all n line awaited (rest.dropWhile (· ≠ '\n'))
    else if c = '\\' && rest.head? = some '\n' then all n (line + 1) awaited (rest.drop 1)
    else if c = '\n' then
      let (bodies, count, rest) := documents awaited rest
      let (more, _) := all n (line + 1 + count) [] rest
      ((line + 1, .operator ['\n']) :: more, bodies)
    else match operatorAt? (c :: rest) with
    | some op =>
      let left := (c :: rest).drop op.length
      if isRedirect op then redirect n line awaited none op left
      else also (.operator op) line (all n line awaited left)
    | none =>
      match scan (rest.length + 2) .nothing (c :: rest) with
      | .error m => ([(line + (c :: rest).count '\n', .wrong m)], [])
      | .ok (w, after) =>
        let line := line + linesTaken (c :: rest) after
        match descriptor? w after, operatorAt? after with
        | some d, some op => redirect n line awaited (some d) op (after.drop op.length)
        | _, _ => also (.word w) line (all n line awaited after)
where
  redirect (n line : Nat) (awaited : List Announced) (d : Option Nat) (op left : Text) :
      List (Nat × Lexeme) × List (Except Text Word) :=
    if op.take 2 ≠ ['<', '<'] then
      let (more, bodies) := all n line awaited left
      ((line, .redirect d op) :: more, bodies)
    else
      let left := left.dropWhile isGap
      match scan (left.length + 1) .nothing left with
      | .error m => ([(line + left.count '\n', .wrong m)], [])
      | .ok ([], _) =>
        let (more, bodies) := all n line awaited left
        ((line, .redirect d ['<', '<']) :: more, bodies)
      | .ok (w, after) =>
        let announced : Announced :=
          { lastLine := w.bare, dropsTabs := op.length = 3, asIs := w.plain?.isNone }
        let (more, bodies) := all n line (awaited ++ [announced]) after
        let line := line + linesTaken left after
        let body := match bodies.getLast? with
          | some (.ok w) => Lexeme.word w
          | some (.error m) => .wrong m
          | none => .word []
        ((line, .redirect d ['<', '<']) :: (line, body) :: more, bodies.dropLast)

end Lexeme

/-- The lexemes of a script from a line on, the last of which is its end. -/
def lexemes (line : Nat) (t : Text) : List (Nat × Lexeme) :=
  (Lexeme.all (t.length + 1) line [] t).1

end LineShell.Script

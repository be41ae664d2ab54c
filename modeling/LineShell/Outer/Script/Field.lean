import LineShell.Files.Tree
import LineShell.Glob.Pattern

/-! Fields, which words come to: how values are split into them, and the files that a field names
where it is a pattern. -/

namespace LineShell.Script

/-- A character, and whether it is quoted. One that is quoted stands for itself in patterns. -/
structure Mark where
  char : Char
  quoted : Bool
  deriving DecidableEq, Repr

abbrev Field := List Mark

namespace Field

def ofText (quoted : Bool) (t : Text) : Field :=
  t.map ({ char := ·, quoted })

def text (f : Field) : Text :=
  f.map (·.char)

/-- The field as a pattern, with a backslash in front of each quoted character. -/
def pattern (f : Field) : Text :=
  f.flatMap fun m => if m.quoted then ['\\', m.char] else [m.char]

/-- Whether the field has a character that makes it a pattern. -/
def isPattern (f : Field) : Bool :=
  f.any fun m => !m.quoted && "*?[".toList.contains m.char

end Field

/-- Fields while a word is expanded: those that are complete, latest first, and the open one. -/
structure Fields where
  done : List Field := []
  current : Option Field := none

namespace Fields

def close (f : Fields) : Fields :=
  { done := f.current.toList ++ f.done, current := none }

/-- Adds characters as they are. -/
def addMarks (f : Fields) (marks : Field) : Fields :=
  { f with current := some (f.current.getD [] ++ marks) }

/-- Adds a text that is not split. -/
def add (f : Fields) (quoted : Bool) (t : Text) : Fields :=
  f.addMarks (Field.ofText quoted t)

/-- Adds a value that is split at separators. Blanks among them separate as many as they are, and
may stand beside another one; `gap` is whether blanks have just ended a field. -/
def addSplit (separators : Text) (f : Fields) (gap : Bool) : Field → Fields
  | [] => f
  | m :: rest =>
    let c := m.char
    if m.quoted || !separators.contains c then
      (f.addMarks [m]).addSplit separators false rest
    else if c = ' ' || c = '\t' || c = '\n' then
      f.close.addSplit separators (gap || f.current.isSome) rest
    else if gap && f.current.isNone then f.addSplit separators false rest
    else
      let ended : Fields := { done := f.current.getD [] :: f.done, current := none }
      ended.addSplit separators false rest

/-- Adds quoted texts as fields of their own. -/
def addEach (f : Fields) : List Text → Fields
  | [] => f
  | [t] => f.add true t
  | t :: rest => (f.add true t).close.addEach rest

/-- Adds texts as fields of their own, each of which is split. -/
def addEachSplit (separators : Text) (f : Fields) : List Text → Fields
  | [] => f
  | [t] => f.addSplit separators false (Field.ofText false t)
  | t :: rest =>
    (f.addSplit separators false (Field.ofText false t)).close.addEachSplit separators rest

def toList (f : Fields) : List Field :=
  f.close.done.reverse

end Fields

/-- Whether a set in brackets has a character. -/
def inSet (c : Char) : Glob.Token → Bool
  | .within parts => parts.any has
  | .except parts => !parts.any has
  | _ => false
where
  has : Glob.Part → Bool
    | .one a => a = c
    | .range a b => a ≤ c && c ≤ b

/-- Whether a pattern matches a text. A backslash takes from the next character what it stands
for. -/
def fits : Text → Text → Bool
  | [], t => t.isEmpty
  | '*' :: pattern, [] => fits pattern []
  | '*' :: pattern, c :: rest => fits pattern (c :: rest) || fits ('*' :: pattern) rest
  | _, [] => false
  | '?' :: pattern, _ :: rest => fits pattern rest
  | '\\' :: a :: pattern, c :: rest => a = c && fits pattern rest
  | '[' :: pattern, c :: rest =>
    match h : Glob.bracketed pattern with
    | some (set, after) =>
      have := Glob.length_of_bracketed h
      inSet c set && fits after rest
    | none => '[' = c && fits pattern rest
  | a :: pattern, c :: rest => a = c && fits pattern rest
termination_by pattern t => pattern.length + t.length
decreasing_by all_goals simp only [List.length_cons]; omega

/-- A text without the shortest or longest beginning that a pattern matches. -/
def withoutStart (longest : Bool) (pattern t : Text) : Text :=
  let cuts := List.range (t.length + 1)
  let cuts := if longest then cuts.reverse else cuts
  ((cuts.find? fun n => fits pattern (t.take n)).map t.drop).getD t

/-- A text without the shortest or longest end that a pattern matches. -/
def withoutEnd (longest : Bool) (pattern t : Text) : Text :=
  let cuts := List.range (t.length + 1)
  let cuts := if longest then cuts else cuts.reverse
  ((cuts.find? fun n => fits pattern (t.drop n)).map t.take).getD t

namespace Field

/-- The paths that the components of a field lead to behind a path. A dot in front of a name has to
be spelled. -/
def reached (tree : FileTree) (cwd : Path) (before : Text) : List Field → List Text
  | [] => if (tree.node false (Path.join cwd before : Path)).toOption.isSome then [before] else []
  | [component] =>
    if component.isPattern then named tree cwd before component
    else reached tree cwd (before ++ component.text) []
  | component :: next :: rest =>
    if component.isPattern then
      (named tree cwd before component).flatMap fun p =>
        if tree.isDir (Path.join cwd p : Path) then
          reached tree cwd (p ++ ['/']) (next :: rest)
        else []
    else reached tree cwd (before ++ component.text ++ ['/']) (next :: rest)
termination_by components => components.length
where
  named (tree : FileTree) (cwd : Path) (before : Text) (component : Field) : List Text :=
    let directory : Path := Path.join cwd (if before.isEmpty then ['.'] else before)
    let entries := (tree.list directory).toOption.getD []
    let names := [['.'], ['.', '.']] ++ entries.filterMap fun (n, _) => Name.text? n
    (names.filter fun n =>
      (n.head? ≠ some '.' || component.text.head? = some '.') && fits component.pattern n).map
        (before ++ ·)

/-- What a field comes to: the paths that it matches in their order, or else its own text. -/
def expand (tree : FileTree) (cwd : Path) (f : Field) : List Text :=
  if !f.isPattern then [f.text]
  else
    let components := f.splitOnP (·.char = '/')
    match (reached tree cwd [] components).mergeSort Text.le with
    | [] => [f.text]
    | paths => paths

end Field

end LineShell.Script

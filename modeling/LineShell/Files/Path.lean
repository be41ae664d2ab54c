import LineShell.Text.Utf8

/-! Paths as they are typed, shown and remembered: texts with components between slashes. The
operations here look at the text alone and never at a file. -/

namespace LineShell

abbrev Path := Text

/-- A component of a path: the root, `.`, `..`, or a name. -/
inductive Component (ν : Type) where
  | root
  | here
  | up
  | name (n : ν)
  deriving DecidableEq, Repr

namespace Component

def map {ν μ : Type} (f : ν → μ) : Component ν → Component μ
  | root => root
  | here => here
  | up => up
  | name n => name (f n)

/-- The component that stands between two slashes. -/
def ofText (t : Text) : Component Text :=
  if t = ['.'] then here else if t = ['.', '.'] then up else name t

/-- The text of a component. -/
def text : Component Text → Text
  | root => ['/']
  | here => ['.']
  | up => ['.', '.']
  | name n => n

end Component

namespace Path

/-- An absolute path begins with a slash. -/
def isAbsolute (p : Path) : Bool :=
  p.head? = some '/'

/-- The components that a path spells, every `.` included. Runs of slashes count as one. -/
def spelled (p : Path) : List (Component Text) :=
  (if isAbsolute p then [.root] else []) ++
    ((p.splitOn '/').filter (!·.isEmpty)).map Component.ofText

/-- Whether a path ends in a slash or in a `.` behind some component. -/
def stays (p : Path) : Bool :=
  let between := p.splitOn '/'
  (between.getLast? = some [] || between.getLast? = some ['.']) && between.any (!·.isEmpty)

/-- All components. A path that ends in a slash or in a `.` ends in one `.` more, which is where it
stays. -/
def allComponents (p : Path) : List (Component Text) :=
  spelled p ++ if stays p then [.here] else []

/-- The components that matter: a `.` only where a relative path begins with it. -/
def components (p : Path) : List (Component Text) :=
  match allComponents p with
  | first :: rest => first :: rest.filter (· ≠ .here)
  | [] => []

/-- A path inside another one; an absolute path replaces the other. -/
def join (base p : Path) : Path :=
  if isAbsolute p then p
  else if base.isEmpty || base.getLast? = some '/' then base ++ p
  else base ++ '/' :: p

/-- The reversed text without the slashes and lone dots that are no component at its end. -/
def dropIdle : Text → Text
  | '/' :: c :: rest => dropIdle (c :: rest)
  | '.' :: '/' :: c :: rest => dropIdle ('/' :: c :: rest)
  | ['.', '/'] => ['/']
  | t => t

/-- A path without its last component: `none` where no component is left to drop. -/
def parent? (p : Path) : Option Path :=
  match components p with
  | [] | [.root] => none
  | _ =>
    let kept := (dropIdle p.reverse).dropWhile (· ≠ '/')
    some (dropIdle kept).reverse

/-- A path without its last component, if it has one. -/
def pop (p : Path) : Path :=
  (parent? p).getD p

/-- The last component, where it is a name. -/
def fileName? (p : Path) : Option Text :=
  match (components p).getLast? with
  | some (.name n) => some n
  | _ => none

/-- Whether the components of a path begin with those of another. -/
def below (base p : Path) : Bool :=
  (components base).isPrefixOf (components p)

/-- The text in front of which slashes and lone dots are dropped. -/
def trimStart : Text → Text
  | '/' :: rest => trimStart rest
  | ['.'] => []
  | '.' :: '/' :: rest => trimStart rest
  | t => t

/-- What is left of a path after the components of `base`. -/
def relativeTo? (base p : Path) : Option Path :=
  if below base p then
    let drop (p : Path) (c : Component Text) : Path :=
      match c with
      | .root | .here => p.drop 1
      | c => (trimStart p).drop c.text.length
    let rest := trimStart ((components base).foldl drop p)
    some (dropIdle rest.reverse).reverse
  else none

/-- A tilde alone, or in front of a slash or backslash, is the home directory. -/
def expandTilde (home : Option Path) (t : Text) : Path :=
  match t, home with
  | ['~'], some home => home
  | '~' :: '/' :: rest, some home => join home rest
  | '~' :: '\\' :: rest, some home => join home rest
  | _, _ => t

/-- One step of a walk through a path: `..` leaves the directory that the walk has reached. -/
def step (reached : Path) : Component Text → Path
  | .root => ['/']
  | .here => reached
  | .up => pop reached
  | .name n => join reached n

/-- The path that a typed one names in the directory `cwd`: tildes are expanded, and `.` and `..`
are folded away by the text alone. -/
def resolve (home : Option Path) (cwd : Path) (typed : Text) : Path :=
  if typed.isEmpty then cwd
  else
    let expanded := expandTilde home typed
    (components expanded).foldl step (if isAbsolute expanded then [] else cwd)

end Path

end LineShell

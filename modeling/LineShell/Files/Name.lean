import LineShell.Files.Path

/-! Names in directories, and places that are reached through them. A name is a string of bytes
and need not be text; it is kept in pieces, so that it can be shown, compared with a typed word,
and ordered by its bytes. -/

namespace LineShell

abbrev Name := List Text.Piece

namespace Name

/-- The name that a text spells. -/
def ofText (t : Text) : Name :=
  t.map .char

/-- The name as it is shown. -/
def shown (n : Name) : Text :=
  Text.shown n

/-- The name as a text, if it is one. -/
def text? (n : Name) : Option Text :=
  n.mapM fun
    | .char c => some c
    | .broken _ => none

def bytes (n : Name) : Text.Bytes :=
  n.flatMap Text.Piece.bytes

/-- The number of bytes of a name. -/
def size (n : Name) : Nat :=
  n.bytes.length

/-- The order of names by their bytes. -/
def le (a b : Name) : Bool :=
  Text.leBy UInt8.toNat a.bytes b.bytes

end Name

/-- A path that may go on with names found in directories, the last one first. -/
structure Place where
  path : Path
  inside : List Name := []
  deriving DecidableEq, Repr

instance : Coe Path Place := ⟨fun p => { path := p }⟩

namespace Place

/-- An entry of the directory at a place. -/
def entry (p : Place) (n : Name) : Place :=
  { p with inside := n :: p.inside }

/-- The place as it is shown. -/
def shown (p : Place) : Text :=
  p.inside.foldr (fun n shown => Path.join shown n.shown) p.path

/-- The components to walk through. -/
def walked (p : Place) : List (Component Name) :=
  (Path.allComponents p.path).map (.map Name.ofText) ++ p.inside.reverse.map .name

/-- The components that matter when two places are compared. -/
def components (p : Place) : List (Component Name) :=
  (Path.components p.path).map (.map Name.ofText) ++ p.inside.reverse.map .name

/-- Whether the components of a place begin with those of another. -/
def below (base p : Place) : Bool :=
  base.components.isPrefixOf p.components

/-- The number of bytes of the whole path. -/
def size (p : Place) : Nat :=
  let start := Text.total (p.path.map Char.utf8Size)
  let slash := if p.path.getLast? = some '/' ∧ !p.inside.isEmpty then 0 else 1
  match p.inside.reverse with
  | [] => start
  | first :: rest => start + slash + first.size + Text.total (rest.map fun n => n.size + 1)

/-- The place without its last component. -/
def parent? (p : Place) : Option Place :=
  match p.inside with
  | _ :: outer => some { p with inside := outer }
  | [] => (Path.parent? p.path).map fun q => { path := q }

end Place

/-- A way through directories, the last name first. The root is the empty one. -/
abbrev Location := List Name

namespace Location

/-- The bytes of the path with no link in it that leads to a location. -/
def bytes : Location → Text.Bytes
  | [] => [47]
  | l => l.reverse.flatMap fun n => 47 :: n.bytes

/-- The path as it is shown. -/
def shown : Location → Path
  | [] => ['/']
  | l => l.reverse.flatMap fun n => '/' :: n.shown

end Location

end LineShell

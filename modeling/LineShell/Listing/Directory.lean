import LineShell.Files.Tree
import LineShell.Listing.Columns
import LineShell.Listing.Date
import LineShell.Listing.Options

/-! The listing of a directory: its names in columns, or a line of details for each. -/

namespace LineShell.Listing

open Text

/-- What is told of an entry besides its name. -/
structure Details where
  kind : Char
  mode : Nat
  size : Nat
  changed : Time

/-- The size that a directory is said to have. -/
def dirSize : Nat := 4096

/-- The details of a node. A link is told of itself, not of what it leads to. -/
def details (t : FileTree) : Node → Details
  | .dir mode changed _ => { kind := 'd', mode, size := dirSize, changed }
  | .link target changed =>
    { kind := 'l', mode := 0o777, size := total (target.map Char.utf8Size), changed }
  | .sink => { kind := '-', mode := 0o666, size := 0, changed := 0 }
  | .file id =>
    match t.files[id]? with
    | some f => { kind := '-', mode := f.mode, size := f.bytes.length, changed := f.changed }
    | none => { kind := '-', mode := 0, size := 0, changed := 0 }

/-- Three permissions in letters, from the lowest three bits. -/
def threeBits (bits : Nat) : Text :=
  [if bits / 4 % 2 = 1 then 'r' else '-', if bits / 2 % 2 = 1 then 'w' else '-',
   if bits % 2 = 1 then 'x' else '-']

/-- The kind and the permissions in letters. -/
def Details.permissions (d : Details) : Text :=
  d.kind :: threeBits (d.mode / 64) ++ threeBits (d.mode / 8) ++ threeBits d.mode

/-- A text at the right end of `n` columns. -/
def flushRight (n : Nat) (t : Text) : Text :=
  blanks (n - t.length) ++ t

/-- The line of an entry. -/
def Details.line (zone : Time → Int) (d : Details) (name : Text) : Except Crash Text := do
  let date ← date zone d.changed
  return d.permissions ++ ' ' :: flushRight 10 (decimal d.size) ++ ' ' :: date ++ ' ' :: name

/-- The number of blocks of 512 bytes that a size takes. -/
def blocks (size : Nat) : Nat :=
  (size + 511) / 512

/-- One more than the largest number that blocks are counted with. -/
def blockLimit : Nat := 18446744073709551616

def label (name : Name) (n : Node) : Label :=
  { text := name.shown, isDir := n.isDir }

/-- The entries that are listed, in the order of the bytes of their names. -/
def listed (options : Options) (entries : List (Name × Node)) : List (Name × Node) :=
  (entries.filter fun (name, _) => options.all || name.shown.head? ≠ some '.').mergeSort
    fun a b => a.1.le b.1

/-- The lines of entries, and the blocks that they take, counted from those that others take. -/
def detailLines (on : Bool) (zone : Time → Int) (t : FileTree) (taken : Nat) :
    List (Name × Node) → Except Crash (Nat × List Text)
  | [] => .ok (taken, [])
  | (name, n) :: rest => do
    let d := details t n
    let taken ← Count.more blockLimit taken (blocks d.size)
    let line ← d.line zone ((label name n).shown on)
    let (taken, lines) ← detailLines on zone t taken rest
    return (taken, line :: lines)

/-- The lines of details, below the number of blocks that all entries take. -/
def withDetails (on : Bool) (zone : Time → Int) (t : FileTree) (entries : List (Name × Node)) :
    Except Crash Text := do
  let (taken, lines) ← detailLines on zone t 0 entries
  return stacked (("total " ++ decimal taken) :: lines)

/-- The entries of a directory that have details: all of them, where it may be searched. -/
def detailed (options : Options) (t : FileTree) (p : Place) (entries : List (Name × Node)) :
    List (Name × Node) :=
  if (t.node true p).toOption.any (·.grants .search) then listed options entries else []

/-- The listing of a directory. -/
def render (on : Bool) (zone : Time → Int) (terminal : Nat) (options : Options) (t : FileTree)
    (p : Place) : Except IoError (Except Crash Text) :=
  match t.list p with
  | .error e => .error e
  | .ok entries =>
    .ok (if options.long then withDetails on zone t (detailed options t p entries)
      else inColumns on terminal ((listed options entries).map fun (name, n) => label name n))

end LineShell.Listing

import LineShell.Text.Basic

/-! The options of a listing. Every argument with a leading dash holds flags, one a character;
characters that are no flag are passed over. -/

namespace LineShell.Listing

structure Options where
  /-- Names with a leading dot are listed too. -/
  all : Bool := false
  /-- Each entry has a line with its details. -/
  long : Bool := false
  deriving DecidableEq, Repr

namespace Options

/-- The options after one more flag. -/
def flag (o : Options) : Char → Options
  | 'a' => { o with all := true }
  | 'l' => { o with long := true }
  | _ => o

/-- The options of arguments, and the first argument that holds no flags. -/
def parse (arguments : List Text) : Options × Option Text :=
  let isFlags (a : Text) : Bool := a.head? = some '-'
  let flags := (arguments.filter isFlags).flatMap List.tail
  (flags.foldl flag {}, arguments.find? (!isFlags ·))

end Options

end LineShell.Listing

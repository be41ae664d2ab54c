/-! Text is a list of characters. This module holds the few operations on it that have no
character class in them: joining, searching, and cutting into lines. -/

namespace LineShell

abbrev Text := List Char

instance : Coe String Text := ⟨String.toList⟩

namespace Text

/-- The texts one after another with `separator` between neighbours. -/
def joined (separator : Text) (parts : List Text) : Text :=
  List.intercalate separator parts

theorem prefix_joined (separator first : Text) (rest : List Text) :
    first <+: joined separator (first :: rest) := by
  cases rest with
  | nil => exact ⟨[], by rw [joined, List.intercalate_singleton, List.append_nil]⟩
  | cons second rest =>
    rw [joined, List.intercalate_cons_cons, List.append_assoc]
    exact List.prefix_append _ _

/-- The texts one below another. -/
def stacked (parts : List Text) : Text :=
  joined ['\n'] parts

/-- Whether `needle` stands somewhere in the text. -/
def occurs (needle : Text) : Text → Bool
  | [] => needle.isEmpty
  | c :: rest => needle.isPrefixOf (c :: rest) || occurs needle rest

/-- The order of sequences by the numbers of their elements, the first difference counting. -/
def leBy {α : Type} (number : α → Nat) : List α → List α → Bool
  | [], _ => true
  | _ :: _, [] => false
  | a :: as, b :: bs =>
    number a < number b || (number a = number b && leBy number as bs)

/-- The order of texts by their characters. -/
def le (a b : Text) : Bool :=
  leBy Char.toNat a b

/-- The sum of numbers. -/
def total : List Nat → Nat
  | [] => 0
  | n :: rest => n + total rest

/-- A number in decimal digits. -/
def decimal (n : Nat) : Text :=
  Nat.toDigits 10 n

/-- `n` blanks. -/
def blanks (n : Nat) : Text :=
  List.replicate n ' '

/-- The pieces between the separators of a sequence; a last separator closes the last piece
instead of opening an empty one. -/
def pieces {α : Type} [BEq α] (separator : α) (items : List α) : List (List α) :=
  let parts := items.splitOn separator
  if parts.getLast?.any List.isEmpty then parts.dropLast else parts

/-- The last `n` elements of a sequence. -/
def latest {α : Type} (n : Nat) (items : List α) : List α :=
  items.drop (items.length - n)

/-- A carriage return before a line feed belongs to the line's end. -/
def dropReturn (line : Text) : Text :=
  if line.getLast? = some '\r' then line.dropLast else line

/-- The lines of a text. Each ends in a line feed or in a carriage return and a line feed; the
last one may end with the text, and is then taken as it stands. -/
def lines (t : Text) : List Text :=
  let parts := t.splitOn '\n'
  parts.dropLast.map dropReturn ++ parts.getLast?.toList.filter (!·.isEmpty)

/-- What follows the first place where `separator` stands. -/
def after? (separator : Text) : Text → Option Text
  | [] => if separator.isEmpty then some [] else none
  | c :: rest =>
    match List.isPrefixOf? separator (c :: rest) with
    | some tail => some tail
    | none => after? separator rest

end Text

end LineShell

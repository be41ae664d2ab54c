import LineShell.Text.Basic

/-! Bytes read as UTF-8. The reading never fails: bytes that are no character are kept as
broken pieces, each as long as some character begins with it, so that the bytes can be had back
and a broken piece can be shown as one replacement character. -/

namespace LineShell.Text

abbrev Bytes := List UInt8

/-- A part of a byte string: a character, or bytes that begin one and do not end it. -/
inductive Piece where
  | char (c : Char)
  | broken (bytes : Bytes)
  deriving DecidableEq, Repr

/-- The bytes of a character, from one to four of them. -/
def encodeChar (c : Char) : Bytes :=
  let n := c.toNat
  let tail (n : Nat) : UInt8 := UInt8.ofNat (0x80 + n % 64)
  if n < 0x80 then [UInt8.ofNat n]
  else if n < 0x800 then [UInt8.ofNat (0xC0 + n / 64), tail n]
  else if n < 0x10000 then [UInt8.ofNat (0xE0 + n / 4096), tail (n / 64), tail n]
  else [UInt8.ofNat (0xF0 + n / 262144), tail (n / 4096), tail (n / 64), tail n]

/-- The bytes of a text. -/
def encode (t : Text) : Bytes :=
  t.flatMap encodeChar

/-- The bytes that a piece stands for. -/
def Piece.bytes : Piece → Bytes
  | .char c => encodeChar c
  | .broken bs => bs

/-- The replacement character, which stands for a broken piece. -/
def replacement : Char := Char.ofNat 0xFFFD

def Piece.shown : Piece → Char
  | .char c => c
  | .broken _ => replacement

/-- A reader between two bytes: the pieces it has, latest first, and the character it is in. A
character in progress is told by its bytes so far, latest first, their value, the number of
bytes it still needs, and the bounds for the next one. -/
structure Reader where
  pieces : List Piece := []
  held : Bytes := []
  value : Nat := 0
  owed : Nat := 0
  low : Nat := 0x80
  high : Nat := 0xBF

namespace Reader

/-- Gives up the character in progress, if there is one. -/
def flush (r : Reader) : Reader :=
  if r.held.isEmpty then r else { pieces := .broken r.held.reverse :: r.pieces }

/-- Takes a byte that can only begin a character, with no other in progress. -/
def begin (r : Reader) (b : UInt8) : Reader :=
  let n := b.toNat
  let lead (value owed low high : Nat) : Reader :=
    { pieces := r.pieces, held := [b], value, owed, low, high }
  if n < 0x80 then { pieces := .char (Char.ofNat n) :: r.pieces }
  else if n < 0xC2 then { pieces := .broken [b] :: r.pieces }
  else if n < 0xE0 then lead (n - 0xC0) 1 0x80 0xBF
  else if n = 0xE0 then lead 0 2 0xA0 0xBF
  else if n = 0xED then lead 0xD 2 0x80 0x9F
  else if n < 0xF0 then lead (n - 0xE0) 2 0x80 0xBF
  else if n = 0xF0 then lead 0 3 0x90 0xBF
  else if n < 0xF4 then lead (n - 0xF0) 3 0x80 0xBF
  else if n = 0xF4 then lead 4 3 0x80 0x8F
  else { pieces := .broken [b] :: r.pieces }

/-- One byte more. -/
def push (r : Reader) (b : UInt8) : Reader :=
  if r.owed ≠ 0 ∧ r.low ≤ b.toNat ∧ b.toNat ≤ r.high then
    let value := r.value * 64 + (b.toNat - 0x80)
    if r.owed = 1 then { pieces := .char (Char.ofNat value) :: r.pieces }
    else { pieces := r.pieces, held := b :: r.held, value, owed := r.owed - 1 }
  else r.flush.begin b

end Reader

/-- The pieces of a byte string. -/
def decode (bytes : Bytes) : List Piece :=
  (bytes.foldl Reader.push {}).flush.pieces.reverse

/-- The text that is shown for pieces. -/
def shown (pieces : List Piece) : Text :=
  pieces.map Piece.shown

/-- The text that is shown for bytes. -/
def lossy (bytes : Bytes) : Text :=
  shown (decode bytes)

end LineShell.Text

import LineShell.Text.Blank
import LineShell.Text.Numeral
import LineShell.Text.Utf8

/-! What `echo` and `printf` write: escapes in a text, and formats with values. -/

namespace LineShell.Script.Output

open Text (Bytes)

def isOctal (c : Char) : Bool :=
  '0' ≤ c && c ≤ '7'

/-- The byte of up to three octal digits, and what follows them. -/
def octal (t : Text) : UInt8 × Text :=
  let digits := (t.take 3).takeWhile isOctal
  (UInt8.ofNat (digits.foldl (fun n c => n * 8 + (c.toNat - '0'.toNat)) 0), t.drop digits.length)

/-- The byte of an escape of one letter. -/
def letter? : Char → Option UInt8
  | 'a' => some 7
  | 'b' => some 8
  | 'e' => some 27
  | 'f' => some 12
  | 'n' => some 10
  | 'r' => some 13
  | 't' => some 9
  | 'v' => some 11
  | '\\' => some 92
  | _ => none

/-- The bytes of the escape behind a backslash and what follows it; `none` where the output ends.
In a format an octal number has up to three digits, elsewhere a zero in front of them. -/
def escape (inFormat : Bool) : Text → Option (Bytes × Text)
  | [] => some ([92], [])
  | c :: rest =>
    if c = 'c' && !inFormat then none
    else if inFormat && isOctal c then let (b, rest) := octal (c :: rest); some ([b], rest)
    else if c = '0' then let (b, rest) := octal rest; some ([b], rest)
    else match letter? c with
    | some b => some ([b], rest)
    | none => some (92 :: Text.encodeChar c, rest)

/-- A text with its escapes carried out, and whether an escape ends the output. Each step takes a
character or more. -/
def unescape : Nat → Text → Bytes × Bool
  | 0, _ => ([], false)
  | _, [] => ([], false)
  | n + 1, '\\' :: rest =>
    match escape false rest with
    | none => ([], true)
    | some (bytes, rest) => let (more, ends) := unescape n rest; (bytes ++ more, ends)
  | n + 1, c :: rest => let (more, ends) := unescape n rest; (Text.encodeChar c ++ more, ends)

/-- What `echo` writes. -/
def echo (arguments : List Text) : Bytes :=
  let (breaks, arguments) := match arguments with
    | ['-', 'n'] :: rest => (false, rest)
    | _ => (true, arguments)
  let t := Text.joined [' '] arguments
  let (bytes, ends) := unescape (t.length + 1) t
  if ends || !breaks then bytes else bytes ++ [10]

/-- What `echo` writes as a program of its own: escapes count only where it is told so. -/
def plainEcho (arguments : List Text) : Bytes :=
  let isOptions (t : Text) : Bool :=
    t.head? = some '-' && t.length > 1 && (t.drop 1).all ("neE".toList.contains ·)
  let options := (arguments.takeWhile isOptions).flatMap (·.drop 1)
  let t := Text.joined [' '] (arguments.dropWhile isOptions)
  let escapes := (options.filter (· ≠ 'n')).getLast? = some 'e'
  let (bytes, ends) := if escapes then unescape (t.length + 1) t else (Text.encode t, false)
  if ends || options.contains 'n' then bytes else bytes ++ [10]

/-- What `printf` comes to: what it writes, what it complains about, and its status. -/
structure Printed where
  bytes : Bytes := []
  faults : List Text := []
  status : Nat := 0

namespace Printed

/-- A complaint that ends the output. -/
def stopped (fault : Text) : Printed :=
  { faults := [fault], status := 2 }

def append (p q : Printed) : Printed :=
  { bytes := p.bytes ++ q.bytes, faults := p.faults ++ q.faults, status := max p.status q.status }

def behind (bytes : Bytes) (p : Printed) : Printed :=
  { p with bytes := bytes ++ p.bytes }

end Printed

/-- A value brought to a width. -/
def padded (left : Bool) (width : Nat) (bytes : Bytes) : Bytes :=
  let fill := width - bytes.length
  if left then bytes ++ List.replicate fill 32 else List.replicate fill 32 ++ bytes

/-- A number as an argument, and what is wrong with it. A quote in front of a character stands for
the number of the character. -/
def numberOf (unsigned : Bool) (t : Text) : Int × Option Text :=
  match t with
  | [] => (0, none)
  | '"' :: c :: _ => ((Text.encodeChar c).head?.elim 0 fun b => (b.toNat : Int), none)
  | '\'' :: c :: _ => ((Text.encodeChar c).head?.elim 0 fun b => (b.toNat : Int), none)
  | _ =>
    let trimmed := t.dropWhile Text.isBlank
    let negative := trimmed.head? = some '-'
    let body := if negative || trimmed.head? = some '+' then trimmed.drop 1 else trimmed
    let digits (l : Text) (isDigit : Char → Bool) : Text × Text :=
      (l.takeWhile isDigit, l.dropWhile isDigit)
    let isHex (c : Char) : Bool := c.isDigit || "abcdefABCDEF".toList.contains c
    let (base, (ds, after)) := match body with
      | '0' :: 'x' :: c :: rest => if isHex c then (16, digits (c :: rest) isHex)
        else (8, digits body isOctal)
      | '0' :: _ => (8, digits body isOctal)
      | _ => (10, digits body Char.isDigit)
    let value (c : Char) : Nat :=
      if c.isDigit then c.toNat - '0'.toNat else c.toLower.toNat - 'a'.toNat + 10
    let size := ds.foldl (fun n c => n * base + value c) 0
    let largest : Nat :=
      if unsigned then 18446744073709551615
      else if negative then 9223372036854775808 else 9223372036854775807
    let n : Int := if negative then -(min size largest : Nat) else (min size largest : Nat)
    if size > largest then (n, some (t ++ ": Numerical result out of range"))
    else if ds.isEmpty then (0, some (t ++ ": expected numeric value"))
    else if !after.isEmpty then (n, some (t ++ ": not completely converted"))
    else (n, none)

/-- The digits of a number of 64 bits, as the conversion takes it. -/
def digitsOf (conversion : Char) (n : Int) : Text :=
  let bits := (n % 18446744073709551616).toNat
  match conversion with
  | 'x' => Nat.toDigits 16 bits
  | 'X' => (Nat.toDigits 16 bits).map Char.toUpper
  | 'o' => Nat.toDigits 8 bits
  | 'u' => Text.decimal bits
  | _ => Text.decimal n.natAbs

/-- A number by its conversion: sign, mark of the base, and at least as many digits as told. -/
def converted (conversion : Char) (flags : Text) (width : Nat) (precision : Option Nat)
    (n : Int) : Bytes :=
  let signed := conversion = 'd' || conversion = 'i'
  let digits := if n = 0 && precision = some 0 then [] else digitsOf conversion n
  let sign : Text :=
    if signed && n < 0 then ['-']
    else if signed && flags.contains '+' then ['+']
    else if signed && flags.contains ' ' then [' ']
    else []
  let mark : Text :=
    if !flags.contains '#' || n = 0 then []
    else match conversion with
      | 'x' => ['0', 'x']
      | 'X' => ['0', 'X']
      | 'o' => ['0']
      | _ => []
  let used := sign.length + mark.length
  let least := match precision with
    | some p => p
    | none => if flags.contains '0' && !flags.contains '-' then width - used else 0
  let zeros := List.replicate (least - digits.length) '0'
  padded (flags.contains '-') width (Text.encode (sign ++ mark ++ zeros ++ digits))

/-- A number where the format may ask for the next value instead, and what follows it. -/
def measure (format : Text) (values : List Text) : Option Int × Text × List Text :=
  match format with
  | '*' :: rest => (some (numberOf false (values.head?.getD [])).1, rest, values.drop 1)
  | _ =>
    let digits := format.takeWhile Char.isDigit
    ((Text.digits? digits).map Int.ofNat, format.drop digits.length, values)

/-- One pass through a format: what it comes to, the values that are left, and whether an escape
ends all output. -/
def pass : Nat → Text → List Text → Printed × List Text × Bool
  | 0, _, values => ({}, values, false)
  | _, [], values => ({}, values, false)
  | n + 1, '\\' :: rest, values =>
    match escape true rest with
    | none => ({}, [], true)
    | some (bytes, rest) =>
      let (more, after) := pass n rest values
      (more.behind bytes, after)
  | n + 1, '%' :: '%' :: rest, values =>
    let (more, after) := pass n rest values
    (more.behind [37], after)
  | n + 1, '%' :: start, values =>
    let isFlag (c : Char) : Bool := "-+ #0".toList.contains c
    let flags := start.takeWhile isFlag
    let (width, rest, values) := measure (start.dropWhile isFlag) values
    let (precision, rest, values) := match rest with
      | '.' :: rest =>
        let (p, rest, values) := measure rest values
        (some (p.getD 0), rest, values)
      | _ => (none, rest, values)
    let flags := if width.any (· < 0) then '-' :: flags else flags
    let size := (width.getD 0).natAbs
    let precision := precision.bind fun p => if p < 0 then none else some p.toNat
    let left := flags.contains '-'
    let value := values.head?.getD []
    let go (p : Printed) (rest : Text) : Printed × List Text × Bool :=
      let (more, after) := pass n rest (values.drop 1)
      (p.append more, after)
    match rest with
    | [] => (.stopped "missing format character", [], true)
    | conversion :: rest =>
      if conversion = 's' then
        let bytes := Text.encode value
        go { bytes := padded left size (bytes.take (precision.getD bytes.length)) } rest
      else if conversion = 'b' then
        let (bytes, ends) := unescape (value.length + 1) value
        let p : Printed := { bytes := padded left size (bytes.take (precision.getD bytes.length)) }
        if ends then (p, [], true) else go p rest
      else if conversion = 'c' then
        go { bytes := padded left size ((Text.encode value).take 1) } rest
      else if "diouxX".toList.contains conversion then
        let (n, fault) := numberOf (conversion ≠ 'd' && conversion ≠ 'i') value
        go { bytes := converted conversion flags size precision n, faults := fault.toList,
             status := if fault.isSome then 1 else 0 } rest
      else
        let shown := '%' :: start.take (start.length - rest.length)
        (.stopped (shown ++ ": invalid directive"), [], true)
  | n + 1, c :: rest, values =>
    let (more, after) := pass n rest values
    (more.behind (Text.encodeChar c), after)

/-- The format again and again as long as values are left and it takes some. -/
def passes : Nat → Text → List Text → Printed
  | 0, _, _ => {}
  | n + 1, format, values =>
    let (p, left, ends) := pass (format.length + 1) format values
    if ends || left.isEmpty || left.length = values.length then p
    else p.append (passes n format left)

/-- What `printf` comes to. -/
def printf : List Text → Printed
  | ['-', '-'] :: format :: values => passes (values.length + 1) format values
  | [] | [['-', '-']] => .stopped "usage: printf format [arg ...]"
  | ('-' :: c :: _) :: _ => .stopped ("Illegal option -" ++ [c])
  | format :: values => passes (values.length + 1) format values

end LineShell.Script.Output

import LineShell.Text.Basic
import LineShell.Text.WidthTable

/-! The number of terminal columns a text takes. A text is measured from its end, because what
stands after a character can change the columns it takes: a selector, a skin tone, a joiner, or
the letter it forms a ligature with. -/

namespace LineShell.Text

/-- What stands after the character that is measured next. -/
inductive Shape where
  | plain
  | lineFeed
  | skinTone
  | indicator
  | indicators
  | emoji
  | joinedEmoji
  | joinedKeycap
  | joinedIndicator
  | joinedEvenIndicators
  | joinedOddIndicators
  /-- The end of a flag that is spelled in tags, after some letters and some digits of it. -/
  | joinedTags (letters digits : Nat)
  | alef
  | lamed
  | khmerLetter
  | bugineseYa
  | bugineseIYa
  | tifinagh
  | tifinaghJoiner
  | lisuTone
  | turkicI
  deriving DecidableEq, Repr

/-- The shape, and the signs between it and the character: a joiner inside a ligature, U+FE0F,
which asks for an emoji, and U+FE0E, which asks for a text sign. -/
structure Following where
  shape : Shape := .plain
  joiner : Bool := false
  emojiSelector : Bool := false
  textSelector : Bool := false
  deriving DecidableEq, Repr

/-- Letters of scripts with ligatures that joiners and ignorable marks do not break. -/
def Shape.ligates : Shape → Bool
  | .lamed | .khmerLetter | .bugineseYa | .bugineseIYa | .tifinagh | .tifinaghJoiner | .lisuTone
  | .turkicI => true
  | _ => false

/-- Letters that selectors do not cut off from the letter in front of them. -/
def Shape.keepsSelectors (s : Shape) : Bool :=
  s.ligates || s = .alef

/-- Parts of an emoji that a joiner has put behind another one. -/
def Shape.isJoined : Shape → Bool
  | .joinedEmoji | .joinedKeycap | .joinedTags .. => true
  | _ => false

private def within (low high : Nat) (c : Char) : Bool :=
  low ≤ c.toNat && c.toNat ≤ high

/-- Alefs by joining group. -/
private def isAlef (c : Char) : Bool :=
  [0x622, 0x623, 0x625, 0x627, 0x671, 0x672, 0x673, 0x675, 0x773, 0x774].contains c.toNat ||
    within 0x870 0x882 c

/-- Marks that the eye does not see. -/
private def isIgnorableMark (c : Char) : Bool :=
  Ranges.holds
    [(0x34F, 0x34F), (0x17B4, 0x17B5), (0x180B, 0x180D), (0x180F, 0x180F), (0xFE00, 0xFE0F),
     (0xE0100, 0xE01EF)] c

/-- Lams by joining group. -/
private def isLam (c : Char) : Bool :=
  [0x644, 0x76A, 0x8A6, 0x8C7].contains c.toNat || within 0x6B5 0x6B8 c

private def isKhmerLetter (c : Char) : Bool :=
  Ranges.holds
    [(0x1780, 0x1782), (0x1784, 0x1787), (0x1789, 0x178C), (0x178E, 0x1793), (0x1795, 0x1798),
     (0x179B, 0x179D), (0x17A0, 0x17A0), (0x17A2, 0x17A2), (0x17A7, 0x17A7), (0x17AB, 0x17AC),
     (0x17AF, 0x17AF)] c

private def isTifinagh (c : Char) : Bool :=
  within 0x2D31 0x2D65 c || c.toNat = 0x2D6F

private def isIndicator (c : Char) : Bool :=
  within 0x1F1E6 0x1F1FF c

private def isSkinTone (c : Char) : Bool :=
  within 0x1F3FB 0x1F3FF c

/-- What a tag in front of the end of a flag makes of it. Up to six letters follow one another, and
up to three digits stand in front of at most four letters. -/
def tagged (letters digits : Nat) (c : Char) : Option Shape :=
  if within 0xE0061 0xE007A c && digits = 0 && letters < 6 then
    some (.joinedTags (letters + 1) 0)
  else if within 0xE0030 0xE0039 c && (digits = 0 && letters ≤ 4 || 0 < digits && digits < 3) then
    some (.joinedTags letters (digits + 1))
  else if c.toNat = 0x1F3F4 && (digits = 0 && 3 ≤ letters || digits = 3) then some .emoji
  else none

/-- The columns of a character above U+00A0 after which nothing special stands, and what it is
to the character before it. -/
def columnsAlone (c : Char) : Nat × Following :=
  if zeroWidth.holds c then
    (0, { emojiSelector := c.toNat = 0xFE0F, textSelector := c.toNat = 0xFE0E })
  else if c.toNat = 0x5DC then (1, { shape := .lamed })
  else if isAlef c then (1, { shape := .alef })
  else if isKhmerLetter c then (1, { shape := .khmerLetter })
  else if c.toNat = 0x17D8 then (3, {})
  else if c.toNat = 0x1A10 then (1, { shape := .bugineseYa })
  else if isTifinagh c then (1, { shape := .tifinagh })
  else if within 0xA4FC 0xA4FD c then (1, { shape := .lisuTone })
  else if c.toNat = 0x10C03 then (1, { shape := .turkicI })
  else if isIndicator c then (1, { shape := .indicator })
  else if isSkinTone c then (2, { shape := .skinTone })
  else if emojiPresentation.holds c then (2, { shape := .emoji })
  else if wide.holds c then (2, {})
  else (1, {})

/-- The characters that a text sign or an emoji is made of lose their selectors where the
character before them is not one that the selector is for. -/
def Following.unselected (f : Following) : Following :=
  if f.shape.keepsSelectors then { f with emojiSelector := false, textSelector := false } else {}

/-- The columns that `c` adds to `total` columns in front of the letter or the part of an emoji
that `f` is, and what it is to the character before it. A ligature takes columns away again. -/
def formed (c : Char) (total : Nat) (f : Following) : Nat × Following :=
  let alone := let (n, g) := columnsAlone c; (total + n, g)
  match f.shape with
  | .alef =>
    if isLam c then (total, {})
    else if zeroWidth.holds c && !opaqueZeroWidth.holds c then (total, f)
    else alone
  | .lamed => if f.joiner && c.toNat = 0x5D0 then (total, {}) else alone
  | .khmerLetter => if c.toNat = 0x17D2 then (total - 1, {}) else alone
  | .bugineseYa =>
    if f.joiner && c.toNat = 0x1A17 then (total, { shape := .bugineseIYa }) else alone
  | .bugineseIYa => if c.toNat = 0x1A15 then (total, {}) else alone
  | .tifinagh =>
    if c.toNat = 0x2D7F then (total + 1, { shape := .tifinaghJoiner })
    else if f.joiner && isTifinagh c then (total, {}) else alone
  | .tifinaghJoiner => if isTifinagh c then (total - 1, {}) else alone
  | .lisuTone => if within 0xA4F8 0xA4FB c then (total, {}) else alone
  | .turkicI => if f.joiner && c.toNat = 0x10C32 then (total, {}) else alone
  | .skinTone =>
    if modifierBase.holds c then (total, { shape := .emoji })
    else if c.toNat = 0x200D then (total, { shape := .joinedEmoji }) else alone
  | .indicator =>
    if isIndicator c then (total + 1, { shape := .indicators }) else alone
  | .indicators =>
    if isIndicator c then (total + 1, { shape := .indicators })
    else if c.toNat = 0x200D then (total, { shape := .joinedEmoji }) else alone
  | .emoji => if c.toNat = 0x200D then (total, { shape := .joinedEmoji }) else alone
  | .joinedEmoji =>
    if c.toNat = 0x20E3 then (total, { shape := .joinedKeycap })
    else if isIndicator c then (total + 1, { shape := .joinedIndicator })
    else if c.toNat = 0xE007F then (total, { shape := .joinedTags 0 0 })
    else if isSkinTone c then (total, { shape := .skinTone })
    else if emojiPresentation.holds c then (total, { shape := .emoji })
    else alone
  | .joinedIndicator | .joinedOddIndicators =>
    if isIndicator c then (total - 1, { shape := .joinedEvenIndicators })
    else if c.toNat = 0x200D && f.shape = .joinedOddIndicators then
      (total, { shape := .joinedEmoji })
    else alone
  | .joinedEvenIndicators =>
    if isIndicator c then (total + 3, { shape := .joinedOddIndicators })
    else if c.toNat = 0x200D then (total, { shape := .joinedEmoji })
    else alone
  | .joinedTags letters digits =>
    match tagged letters digits c with
    | some shape => (total, { shape })
    | none => alone
  | .plain | .lineFeed | .joinedKeycap => alone

/-- The columns that `c` adds to `total` columns, and what it is to the character before it. -/
def measure (c : Char) (total : Nat) (f : Following) : Nat × Following :=
  if f.emojiSelector && emojiBase.holds c then
    (if f.shape.isJoined then total else total + 2, { shape := .emoji })
  else
    let f := if f.emojiSelector then f.unselected else f
    if c.toNat ≤ 0xA0 then
      if c = '\n' then (total, { shape := .lineFeed })
      else if c = '\r' ∧ f.shape = .lineFeed then (total, {})
      else (total + 1, {})
    else if c.toNat = 0xFE0F ∧ f ≠ {} then
      (total, if f.shape.keepsSelectors || f.shape.isJoined then
        { f with emojiSelector := true } else { emojiSelector := true })
    else if c.toNat = 0xFE0E ∧ f ≠ {} then
      (total, if f.shape.keepsSelectors then { f with textSelector := true }
        else { textSelector := true })
    else if f.textSelector && textBase.holds c then (total + 1, {})
    else
      let f := if f.textSelector then f.unselected else f
      if f.shape.ligates && c.toNat = 0x200D then (total, { f with joiner := true })
      else if f.shape.ligates && isIgnorableMark c then (total, f)
      else formed c total f

/-- The columns of a text and what it is to a character put in front of it. -/
def measured (t : Text) : Nat × Following :=
  t.foldr (fun c (total, f) => measure c total f) (0, {})

/-- The columns that a text takes on a terminal. -/
def width (t : Text) : Nat :=
  (measured t).1

end LineShell.Text

import LineShell.Text.Basic

/-! Terminal colours. A painted text is the text between an escape sequence that sets a style
and one that resets it; with colours off it is the text itself. -/

namespace LineShell.Text

/-- The escape character. -/
def escape : Char := Char.ofNat 0x1B

/-- A style by its parameters of the `SGR` sequence, such as `1;34` for bold blue. -/
structure Style where
  parameters : Text
  deriving DecidableEq, Repr

namespace Style

def bold : Style := ⟨"1"⟩
def red : Style := ⟨"31"⟩
def green : Style := ⟨"32"⟩
def yellow : Style := ⟨"33"⟩
def cyan : Style := ⟨"36"⟩
def white : Style := ⟨"37"⟩
def grey : Style := ⟨"90"⟩
def brightGreen : Style := ⟨"92"⟩
def brightYellow : Style := ⟨"93"⟩
def brightCyan : Style := ⟨"96"⟩
def boldBlue : Style := ⟨"1;34"⟩
def boldCyan : Style := ⟨"1;36"⟩
def boldBrightRed : Style := ⟨"1;91"⟩
def boldBrightGreen : Style := ⟨"1;92"⟩
def boldBrightYellow : Style := ⟨"1;93"⟩
def boldBrightCyan : Style := ⟨"1;96"⟩

/-- The sequence that begins the style. -/
def opening (s : Style) : Text :=
  escape :: '[' :: s.parameters ++ ['m']

/-- The sequence that ends every style. -/
def reset : Text :=
  [escape, '[', '0', 'm']

/-- The text with `opening` again after each reset inside it, so that the style goes on. -/
def resumed (opening : Text) : Nat → Text → Text
  | _, [] => []
  | 0, c :: rest =>
    if reset.isPrefixOf (c :: rest) then c :: resumed opening 3 rest
    else c :: resumed opening 0 rest
  | 1, c :: rest => c :: opening ++ resumed opening 0 rest
  | n + 2, c :: rest => c :: resumed opening (n + 1) rest

/-- The text in the style, where `on` says whether colours are used at all. -/
def paint (s : Style) (on : Bool) (t : Text) : Text :=
  if on then s.opening ++ resumed s.opening 0 t ++ reset else t

end Style

/-- The text without its escape sequences: from an escape character to the next `m`. -/
def unpainted : Bool → Text → Text
  | _, [] => []
  | false, c :: rest => if c = escape then unpainted true rest else c :: unpainted false rest
  | true, c :: rest => unpainted (c ≠ 'm') rest

end LineShell.Text

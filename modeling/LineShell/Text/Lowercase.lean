import LineShell.Text.Basic
import LineShell.Text.CaseTable

/-! Lowercase of a text, by the full mapping of Unicode. It is context free but for one letter:
a capital sigma becomes a final sigma at the end of a word. -/

namespace LineShell.Text

namespace CaseRun

/-- The lowercase of `n` if the run holds it. -/
def lower? (run : CaseRun) (n : Nat) : Option Nat :=
  if run.first ≤ n ∧ n ≤ run.last ∧ (n - run.first) % run.stride = 0 then
    some (Int.toNat (n + run.shift))
  else none

end CaseRun

/-- The lowercase of a character that stands alone. -/
def lowerChar (c : Char) : Text :=
  if c.toNat < 0x80 then [if 'A' ≤ c ∧ c ≤ 'Z' then Char.ofNat (c.toNat + 32) else c]
  else if c.toNat = 0x130 then ['i', Char.ofNat 0x307]
  else match caseRuns.findSome? (·.lower? c.toNat) with
    | some n => [Char.ofNat n]
    | none => [c]

def capitalSigma : Char := Char.ofNat 0x3A3
def smallSigma : Char := Char.ofNat 0x3C3
def finalSigma : Char := Char.ofNat 0x3C2

/-- Whether the first character that is not passed over is a cased letter. -/
def beginsCased (t : Text) : Bool :=
  (t.dropWhile caseIgnorable.holds).head?.any cased.holds

/-- The lowercase of `t` where `before` is the text in front of it, read backwards. -/
def lowerAfter (before : Text) : Text → Text
  | [] => []
  | c :: rest =>
    let here :=
      if c = capitalSigma then
        [if beginsCased before && !beginsCased rest then finalSigma else smallSigma]
      else lowerChar c
    here ++ lowerAfter (c :: before) rest

/-- The lowercase of a text. -/
def lower (t : Text) : Text :=
  lowerAfter [] t

end LineShell.Text

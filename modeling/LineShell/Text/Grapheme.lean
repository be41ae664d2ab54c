import LineShell.Text.Basic
import LineShell.Text.GraphemeTable

/-! User-perceived characters: the extended grapheme clusters of Unicode. A typed backspace takes
one of them away. -/

namespace LineShell.Text

/-- The part that a character plays in a cluster. -/
inductive Role where
  | carriageReturn
  | lineFeed
  | control
  | extend
  | joiner
  | spacing
  | prepended
  | leading
  | vowel
  | trailing
  | syllable
  | closedSyllable
  | indicator
  | pictograph
  | other
  deriving DecidableEq, Repr

def role (c : Char) : Role :=
  let n := c.toNat
  if n = 0xD then .carriageReturn
  else if n = 0xA then .lineFeed
  else if n = 0x200D then .joiner
  else if graphemeControl.holds c then .control
  else if graphemeExtend.holds c then .extend
  else if spacingMark.holds c then .spacing
  else if prepended.holds c then .prepended
  else if 0x1F1E6 ≤ n ∧ n ≤ 0x1F1FF then .indicator
  else if (0x1100 ≤ n ∧ n ≤ 0x115F) ∨ (0xA960 ≤ n ∧ n ≤ 0xA97C) then .leading
  else if (0x1160 ≤ n ∧ n ≤ 0x11A7) ∨ (0xD7B0 ≤ n ∧ n ≤ 0xD7C6) then .vowel
  else if (0x11A8 ≤ n ∧ n ≤ 0x11FF) ∨ (0xD7CB ≤ n ∧ n ≤ 0xD7FB) then .trailing
  else if 0xAC00 ≤ n ∧ n ≤ 0xD7A3 then
    if (n - 0xAC00) % 28 = 0 then .syllable else .closedSyllable
  else if pictographic.holds c then .pictograph
  else .other

/-- A cluster while it is read: its characters, latest first, the role of the latest, whether
the number of indicators at its end is odd, whether it is a pictograph with marks after it, and
whether it ends in a consonant with marks, a virama among them. -/
structure Cluster where
  chars : Text
  latest : Role
  oddIndicators : Bool
  pictograph : Bool
  conjunct : Option Bool

namespace Cluster

def begin (c : Char) : Cluster :=
  { chars := [c], latest := role c, oddIndicators := role c = .indicator,
    pictograph := role c = .pictograph,
    conjunct := if conjunctConsonant.holds c then some false else none }

/-- Whether a cluster goes on with `c`. -/
def takes (k : Cluster) (c : Char) : Bool :=
  match k.latest, role c with
  | .carriageReturn, r => r = .lineFeed
  | .lineFeed, _ | .control, _ => false
  | _, .control | _, .carriageReturn | _, .lineFeed => false
  | .leading, .leading | .leading, .vowel | .leading, .syllable | .leading, .closedSyllable => true
  | .syllable, .vowel | .vowel, .vowel => true
  | .syllable, .trailing | .vowel, .trailing => true
  | .closedSyllable, .trailing | .trailing, .trailing => true
  | _, .extend | _, .joiner | _, .spacing => true
  | .prepended, _ => true
  | .joiner, .pictograph => k.pictograph
  | .indicator, .indicator => k.oddIndicators
  | _, _ => k.conjunct = some true && conjunctConsonant.holds c

/-- The cluster with one character more. -/
def push (k : Cluster) (c : Char) : Cluster :=
  let r := role c
  { chars := c :: k.chars
    latest := r
    oddIndicators := r = .indicator && !k.oddIndicators
    pictograph :=
      r = .pictograph || (k.pictograph && k.latest ≠ .joiner && (r = .extend || r = .joiner))
    conjunct :=
      if conjunctConsonant.holds c then some false
      else if conjunctLinker.contains c.toNat then k.conjunct.map fun _ => true
      else if r = .extend || r = .joiner then k.conjunct
      else none }

end Cluster

/-- The clusters of a text, in order. -/
def clusters (t : Text) : List Text :=
  let step (state : List Text × Option Cluster) (c : Char) : List Text × Option Cluster :=
    match state with
    | (done, none) => (done, some (.begin c))
    | (done, some k) =>
      if k.takes c then (done, some (k.push c)) else (k.chars.reverse :: done, some (.begin c))
  let (done, last) := t.foldl step ([], none)
  (last.toList.map (·.chars.reverse) ++ done).reverse

def backspace : Char := Char.ofNat 8

/-- The text that is left of typed text when each backspace takes the cluster before it away. -/
def withoutBackspaces (t : Text) : Text :=
  let step (kept : List Text) (cluster : Text) : List Text :=
    if cluster = [backspace] then kept.drop 1 else cluster :: kept
  ((clusters t).foldl step []).reverse.flatten

end LineShell.Text

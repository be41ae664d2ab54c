import LineShell.Proofs.Text.Utf8
import LineShell.Session.Input

/-! A line of what the shell holds is read as the text that its bytes encode. -/

namespace LineShell

theorem Name.text?_ofText (t : Text) : text? (ofText t) = some t := by
  induction t with
  | nil => rfl
  | cons c t ih =>
    rw [text?, ofText] at ih ⊢
    rw [List.map_cons, List.mapM_cons, ih]
    rfl

namespace Input

/-- A line that is held is the next one, with its line feed. -/
theorem nextLine_of_held {i : Input} {line rest : Text.Bytes} (h : i.held = line ++ 10 :: rest)
    (hline : 10 ∉ line) : i.nextLine = (line ++ [10], { i with held := rest }) := by
  have hfill : i.fill = i := by
    rw [fill, if_neg (by simp [h])]
  have hplain : ∀ b ∈ line, decide (b ≠ 10) = true := fun b hb =>
    decide_eq_true fun hten => hline (hten ▸ hb)
  rw [nextLine.eq_def]
  split
  case h_1 hnil => simp [hfill, h] at hnil
  case h_2 b tail hheld =>
    rw [hfill, h] at hheld
    dsimp only
    rw [hfill, ← hheld, List.takeWhile_append_of_pos hplain]
    simp

/-- The bytes of a text and a line feed are a line of this text. -/
theorem readLine_of_nextLine {i i' : Input} {t : Text}
    (h : i.nextLine = (Text.encode t ++ [10], i')) :
    i.readLine = (.line (Text.dropReturn t), i') := by
  have hbytes : Text.encode t ++ [10] = Text.encode (t ++ ['\n']) := by
    rw [Text.encode, Text.encode, List.flatMap_append]
    rfl
  have htext : Name.text? (Text.decode (Text.encode t ++ [10])) = some (t ++ ['\n']) := by
    rw [hbytes, Text.decode_encode]
    exact Name.text?_ofText _
  rw [readLine, h]
  split
  case h_1 hnil => simp at hnil
  case h_2 hsome =>
    cases hsome
    rw [htext]
    simp [dropEnd]

theorem readLine_of_held {i : Input} {t : Text} {rest : Text.Bytes}
    (h : i.held = Text.encode t ++ 10 :: rest) (ht : 10 ∉ Text.encode t) :
    i.readLine = (.line (Text.dropReturn t), { i with held := rest }) :=
  readLine_of_nextLine (nextLine_of_held h ht)

end Input

end LineShell

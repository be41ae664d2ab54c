import LineShell.Proofs.Session.Frame
import LineShell.Proofs.Session.Input
import LineShell.Proofs.Text.LineFeed

/-! What a session and its programs take of the input. The shell takes it in by portions, and its
lines do not depend on where they are cut; a program takes some of what the shell has not. -/

namespace LineShell

namespace Input

/-- What has not been read yet. -/
def bytes (i : Input) : Text.Bytes :=
  i.held ++ i.left

theorem length_bytes (i : Input) : i.bytes.length = i.size := by
  rw [bytes, List.length_append, size]

theorem bytes_fill (i : Input) : i.fill.bytes = i.bytes := by
  rw [fill]
  split
  case isTrue h =>
    rw [bytes, bytes, List.isEmpty_iff.mp h]
    exact List.take_append_drop _ _
  case isFalse => rfl

theorem bytes_of_fill_nil {i : Input} (h : i.fill.held = []) : i.bytes = [] := by
  rw [fill] at h
  split at h
  case isTrue hheld =>
    have hleft : i.left = [] := by simpa [portion] using h
    rw [bytes, List.isEmpty_iff.mp hheld, hleft]
    rfl
  case isFalse hheld => exact absurd (List.isEmpty_iff.mpr h) hheld

/-- The next line ends with the first line feed, and with the input where there is none. -/
theorem nextLine_cases (i : Input) :
    (10 ∉ i.bytes ∧ i.nextLine.1 = i.bytes ∧ i.nextLine.2.bytes = []) ∨
      ∃ line rest, 10 ∉ line ∧ i.bytes = line ++ 10 :: rest ∧ i.nextLine.1 = line ++ [10] ∧
        i.nextLine.2.bytes = rest := by
  induction hsize : i.size using Nat.strong_induction_on generalizing i with
  | _ size ih =>
  rw [nextLine.eq_def]
  split
  case h_1 hnil =>
    have hbytes := bytes_of_fill_nil hnil
    refine .inl ⟨by simp [hbytes], hbytes.symm, ?_⟩
    rw [bytes_fill, hbytes]
  case h_2 b tail hheld =>
    have hfill : i.bytes = (b :: tail) ++ i.fill.left := by
      rw [← bytes_fill, bytes, hheld]
    dsimp only
    rw [hfill]
    by_cases hten : 10 ∈ b :: tail
    · obtain ⟨line, rest, hline, hnot⟩ := List.eq_append_cons_of_mem hten
      have hplain : ∀ c ∈ line, decide (c ≠ 10) = true := fun c hc =>
        decide_eq_true fun h => hnot (h ▸ hc)
      rw [if_pos (List.contains_iff_mem.mpr hten), hline, List.takeWhile_append_of_pos hplain]
      refine .inr ⟨line, rest ++ i.fill.left, hnot, by simp, by simp, ?_⟩
      simp [bytes]
    · rw [if_neg fun h => hten (List.contains_iff_mem.mp h)]
      have hsmaller : ({ left := i.fill.left } : Input).size < size := by
        rw [← hsize, Input.size, List.length_nil, Nat.zero_add]
        exact left_fill_lt hheld
      have hleft : ({ left := i.fill.left } : Input).bytes = i.fill.left := rfl
      rcases ih _ hsmaller _ rfl with
        ⟨hnone, hall, hafter⟩ | ⟨line, rest, hnot, hsome, hline, hafter⟩
      · rw [hleft] at hnone hall
        refine .inl ⟨?_, by rw [hall], hafter⟩
        rw [List.mem_append]
        exact not_or.mpr ⟨hten, hnone⟩
      · rw [hleft] at hsome
        refine .inr ⟨b :: tail ++ line, rest, ?_, ?_, ?_, hafter⟩
        · rw [List.mem_append]
          exact not_or.mpr ⟨hten, hnot⟩
        · rw [hsome, List.append_assoc]
        · rw [hline, List.append_assoc]

/-- Nothing is lost of what is read. -/
theorem nextLine_append (i : Input) : i.nextLine.1 ++ i.nextLine.2.bytes = i.bytes := by
  rcases i.nextLine_cases with ⟨-, hline, hrest⟩ | ⟨line, rest, -, hbytes, hline, hrest⟩
  · rw [hline, hrest, List.append_nil]
  · rw [hline, hrest, hbytes, List.append_assoc]
    rfl

/-- Where a line is found, there is less to be read behind it. -/
theorem size_readLine_lt {i i' : Input} {t : Text} (h : i.readLine = (.line t, i')) :
    i'.size < i.size := by
  have hall := congrArg List.length i.nextLine_append
  rw [List.length_append, length_bytes, length_bytes] at hall
  rw [readLine] at h
  split at h
  case h_1 => cases h
  case h_2 line after hne hnext =>
    have hafter : after = i' := by
      split at h <;> cases h
      rfl
    have hline : 0 < line.length := List.length_pos_iff.mpr hne
    rw [hnext, hafter] at hall
    dsimp only at hall
    omega

/-- A line is read as the text that its bytes encode, wherever portions are cut. -/
theorem readLine_of_bytes {i : Input} {t : Text} {rest : Text.Bytes}
    (h : i.bytes = Text.encode t ++ 10 :: rest) (ht : 10 ∉ Text.encode t) :
    ∃ i', i.readLine = (.line (Text.dropReturn t), i') ∧ i'.bytes = rest := by
  rcases i.nextLine_cases with ⟨hnone, -⟩ | ⟨line, rest', hnot, hbytes, hline, hafter⟩
  · exact absurd (h ▸ by simp) hnone
  · obtain ⟨rfl, rfl⟩ := Text.cut_inj hnot ht (hbytes.symm.trans h)
    exact ⟨_, readLine_of_nextLine (Prod.ext hline rfl), hafter⟩

theorem readLine_of_bytes_nil {i : Input} (h : i.bytes = []) : i.readLine.1 = .nothing := by
  have hline : i.nextLine.1 = [] := (List.append_eq_nil_iff.mp (i.nextLine_append.trans h)).1
  rw [readLine]
  split
  case h_1 => rfl
  case h_2 hne hnext => exact absurd ((congrArg Prod.fst hnext).symm.trans hline) hne

end Input

namespace Session

open Program

/-- What is left of an input once programs have taken some of it. -/
inductive Taken (host : Host) (i : Input) : Input → Prop
  | none : Taken host i i
  | program {t : FileTree} {launch : Launch} {r : Report} (h : host t launch = .ok r) :
      Taken host i (i.after r.taken)

variable {host : Host}

theorem Taken.size_le {i i' : Input} (h : Taken host i i') : i'.size ≤ i.size := by
  cases h with
  | none => exact Nat.le_refl _
  | @program t launch r h =>
    have hdrop : (i.left.drop r.taken).length ≤ i.left.length := by
      rw [List.length_drop]
      exact Nat.sub_le _ _
    exact Nat.add_le_add_left hdrop _

/-- A system whose programs take nothing of the input. -/
def Abstains (host : Host) : Prop :=
  ∀ t launch r, host t launch = .ok r → r.taken = 0

theorem Taken.eq_of_abstains (habstains : Abstains host) {i i' : Input} (h : Taken host i i') :
    i' = i := by
  cases h with
  | none => rfl
  | program h =>
    rw [habstains _ _ _ h, Input.after, List.drop_zero]

variable (host) (s : Session) (around : Surroundings)

theorem input_ask (what : Text) : (s.ask host around what).1.input = s.input := by
  rw [ask]
  split <;> rfl

theorem input_measure : (s.measure host around).1.input = s.input := by
  have hcolumns := s.input_ask host around "cols"
  rw [measure]
  split
  case h_1 => rfl
  case h_2 =>
    split
    case h_1 h =>
      rw [h] at hcolumns
      exact hcolumns
    case h_2 s' _ h =>
      have hlines := s'.input_ask host around "lines"
      rw [h] at hcolumns
      split <;> rename_i h' <;> rw [h'] at hlines <;> exact hlines.trans hcolumns

theorem input_probe (program : Path) (arguments : List Text) :
    (s.probe host around program arguments).1.input = s.input := by
  have hcapture : (s.capture host around program arguments probeLimit).1.input = s.input := by
    rw [capture]
    split <;> rfl
  rw [probe]
  split
  case h_1 h => rwa [h] at hcapture
  case h_2 h => rwa [h] at hcapture

theorem input_describe (name : Text) : (s.describe host around name).1.input = s.input := by
  rw [describe]
  split
  case h_1 => rfl
  case h_2 program _ =>
    have hhelp := s.input_probe host around program ["--help".toList]
    dsimp only
    split
    case h_1 => exact hhelp
    case h_2 =>
      split
      case h_1 => exact hhelp
      case h_2 man _ => exact (input_probe ..).trans hhelp

theorem input_helpFor (columns : Nat) (given : Text) :
    (s.helpFor host around columns given).1.input = s.input := by
  have hdescribe := s.input_describe host around (("--".toList.isPrefixOf? given).getD given)
  rw [helpFor]
  split
  case h_1 => rfl
  case h_2 =>
    split
    case h_1 h => rwa [h] at hdescribe
    case h_2 h => rwa [h] at hdescribe

theorem input_help (columns : Nat) (arguments : List Text) :
    (s.help host around columns arguments).1.input = s.input := by
  rw [help]
  split
  case h_1 given _ => exact s.input_helpFor host around columns given
  case h_2 => rfl

theorem input_runHelp (arguments : List Text) :
    (s.runHelp host around arguments).1.input = s.input := by
  have hmeasure := s.input_measure host around
  rw [runHelp]
  split
  case h_1 h => rwa [h] at hmeasure
  case h_2 s' columns h =>
    rw [h] at hmeasure
    exact (s'.input_help host around columns arguments).trans hmeasure

theorem input_runCommand (c : Command) (arguments : List Text) :
    (s.runCommand host around c arguments).1.input = s.input := by
  have hmeasure := s.input_measure host around
  rw [runCommand]
  split
  case isTrue =>
    split
    case h_1 h => rwa [h] at hmeasure
    case h_2 h => rwa [h] at hmeasure
  case isFalse => rfl

/-- The program that a line runs has the rest of the input to read. -/
theorem taken_runProgram (name : Text) (arguments : List Text) :
    Taken host s.input (s.runProgram host around name arguments).1.input := by
  rw [runProgram]
  split
  case h_1 => exact .none
  case h_2 =>
    split
    case isTrue =>
      simp only [runAttached]
      split
      case h_1 => exact .none
      case h_2 h => exact .program h
    case isFalse =>
      simp only [runCaptured]
      split
      case h_1 => exact .none
      case h_2 h => split <;> exact .program h

theorem taken_dispatch (i : Line.Invocation) :
    Taken host s.input (s.dispatch host around i).1.input := by
  rw [dispatch]
  cases Dispatch.ofKey i.key with
  | command c =>
    rw [answer, input_runCommand]
    exact .none
  | help =>
    rw [answer, input_runHelp]
    exact .none
  | program => exact s.taken_runProgram host around i.name i.arguments
  | history | clear | echo | notFound => exact .none

theorem taken_carryOut (i : Line.Invocation) (r : Line.Redirection) :
    Taken host s.input (s.carryOut host around i r).1.input := by
  have hdispatch (colours : Option Bool) :=
    { s with coloursOverride := colours }.taken_dispatch host around i
  rw [carryOut]
  split
  case h_1 => exact hdispatch s.coloursOverride
  case h_2 =>
    have hoff := hdispatch (some false)
    split
    case h_1 h => rwa [h] at hoff
    case h_2 h => rwa [h] at hoff
    case h_3 h =>
      rw [h] at hoff
      unfold redirect
      dsimp only
      split <;> exact hoff

theorem taken_execute (line : Text) :
    Taken host s.input (s.execute host around line).1.input := by
  rw [execute]
  split
  case isTrue => exact .none
  case isFalse =>
    split
    case h_1 => exact .none
    case h_2 i r _ => exact s.taken_carryOut host around i r

end Session

end LineShell

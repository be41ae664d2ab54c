import LineShell.Proofs.Session.Interrupt
import LineShell.Proofs.Text.Trim

/-! What the bits of a status tell, and the rules by which a program's end is judged. They are the
same for a program that had the terminal and for one whose output was captured; the two differ in
what is said. -/

namespace LineShell

/-- A text without the blanks at its end, and otherwise as it was. -/
def Text.TrimsTo (t shown : Text) : Prop :=
  ∃ gap, t = shown ++ gap ∧ (∀ c ∈ gap, Text.isBlank c = true) ∧
    ∀ c, shown.getLast? = some c → Text.isBlank c = false

theorem Text.trimsTo_trimEnd (t : Text) : t.TrimsTo (Text.trimEnd t) := by
  obtain ⟨gap, hgap, hblank⟩ := Text.exists_trimEnd t
  exact ⟨gap, hgap, hblank, fun _ => Text.isBlank_of_getLast?_trimEnd⟩

namespace Program

/-- What a status may tell of the end of a program. -/
inductive Fate where
  | exited (code : Nat)
  | killed (signal : Nat)
  | unknown
  deriving DecidableEq, Repr

/-- The fate in words. -/
def Fate.text : Fate → Text
  | exited code => Text.decimal code
  | killed signal => "signal " ++ Text.decimal signal
  | unknown => "unknown"

/-- What is found of a program's end, whether it had the terminal or not. -/
inductive Verdict where
  | interrupted
  | succeeded
  | failed (description : Text)
  deriving DecidableEq, Repr

namespace Status

/-- How the bits tell a fate. The lowest seven hold a signal, and are zero after an exit; all of
them are ones where the program has not ended. The bit above them says whether an image of the
memory was kept, and the eight bits above that hold the exit code. -/
inductive Tells (s : Status) : Fate → Prop
  | exited {code image more : Nat} (hcode : code < 256) (himage : image < 2)
      (h : s.bits.toNat = image * 128 + code * 256 + more * 65536) : Tells s (.exited code)
  | killed {signal image more : Nat} (hsignal : 0 < signal ∧ signal < 127) (himage : image < 2)
      (h : s.bits.toNat = signal + image * 128 + more * 256) : Tells s (.killed signal)
  | unknown {more : Nat} (h : s.bits.toNat = 127 + more * 128) : Tells s .unknown

/-- The rules by which an end is judged. An interrupt counts before all else, whether the flag tells
it or the signal does that Ctrl+C sends. -/
inductive Judged (s : Status) (interrupt : Bool) : Verdict → Prop
  | interrupted (h : interrupt = true ∨ s.Tells (.killed 2)) : Judged s interrupt .interrupted
  | succeeded (h : ¬(interrupt = true ∨ s.Tells (.killed 2))) (hbits : s.bits = 0) :
    Judged s interrupt .succeeded
  | failed {fate : Fate} (h : ¬(interrupt = true ∨ s.Tells (.killed 2))) (hbits : s.bits ≠ 0)
    (hfate : s.Tells fate) : Judged s interrupt (.failed fate.text)

/-- The fate that the bits tell. -/
def fate (s : Status) : Fate :=
  if s.low = 0 then .exited (s.bits.toNat / 256 % 256)
  else if s.low = 127 then .unknown
  else .killed s.low

/-- The verdict that the rules come to. -/
def verdict (s : Status) (interrupt : Bool) : Verdict :=
  if interrupt || s.interrupted then .interrupted
  else if s.succeeded then .succeeded
  else .failed s.description

variable {s : Status}

/-- Every pattern of bits tells one fate. -/
theorem tells_iff {fate : Fate} : s.Tells fate ↔ fate = s.fate := by
  rw [Status.fate, low]
  constructor
  · rintro (⟨hcode, himage, h⟩ | ⟨hsignal, himage, h⟩ | h)
    · rw [if_pos (by omega), Fate.exited.injEq]
      omega
    · rw [if_neg (by omega), if_neg (by omega), Fate.killed.injEq]
      omega
    · rw [if_neg (by omega), if_pos (by omega)]
  · rintro rfl
    split
    case isTrue hlow =>
      have hbits : s.bits.toNat = s.bits.toNat / 128 % 2 * 128 +
          s.bits.toNat / 256 % 256 * 256 + s.bits.toNat / 65536 * 65536 := by omega
      exact .exited (by omega) (by omega) hbits
    split
    case isTrue hlow =>
      have hbits : s.bits.toNat = 127 + s.bits.toNat / 128 * 128 := by omega
      exact .unknown hbits
    case isFalse hzero hones =>
      have hbits : s.bits.toNat = s.bits.toNat % 128 + s.bits.toNat / 128 % 2 * 128 +
          s.bits.toNat / 256 * 256 := by omega
      exact .killed (by omega) (by omega) hbits

theorem description_eq (s : Status) : s.description = s.fate.text := by
  rw [description, code?, signal?, fate]
  by_cases hzero : s.low = 0
  · rw [if_pos hzero, if_pos hzero]
    rfl
  by_cases hones : s.low = 127
  · rw [if_neg hzero, if_pos (.inr hones), if_neg hzero, if_pos hones]
    rfl
  · rw [if_neg hzero, if_neg (not_or.mpr ⟨hzero, hones⟩), if_neg hzero, if_neg hones]
    rfl

theorem interrupted_iff : s.interrupted = true ↔ s.Tells (.killed 2) := by
  rw [tells_iff, interrupted, decide_eq_true_iff, signal?, fate, interruptSignal]
  by_cases hzero : s.low = 0
  · simp [hzero]
  by_cases hones : s.low = 127
  · simp [hones]
  · rw [if_neg (not_or.mpr ⟨hzero, hones⟩), if_neg hzero, if_neg hones, Option.some_inj,
      Fate.killed.injEq, eq_comm]

theorem judged_iff {interrupt : Bool} {verdict : Verdict} :
    s.Judged interrupt verdict ↔ verdict = s.verdict interrupt := by
  have hstopped : (interrupt || s.interrupted) = true ↔ interrupt = true ∨ s.Tells (.killed 2) := by
    rw [Bool.or_eq_true, interrupted_iff]
  have hzero : s.succeeded = true ↔ s.bits = 0 := decide_eq_true_iff
  rw [Status.verdict]
  constructor
  · rintro (h | ⟨h, hbits⟩ | ⟨h, hbits, hfate⟩)
    · rw [if_pos (hstopped.mpr h)]
    · rw [if_neg fun hstop => h (hstopped.mp hstop), if_pos (hzero.mpr hbits)]
    · rw [if_neg fun hstop => h (hstopped.mp hstop), if_neg fun hbits' => hbits (hzero.mp hbits'),
        description_eq, tells_iff.mp hfate]
  · rintro rfl
    split
    case isTrue h => exact .interrupted (hstopped.mp h)
    case isFalse h =>
      split
      case isTrue hbits => exact .succeeded (fun hstop => h (hstopped.mpr hstop)) (hzero.mp hbits)
      case isFalse hbits =>
        rw [description_eq]
        exact .failed (fun hstop => h (hstopped.mpr hstop)) (fun hbits' => hbits (hzero.mpr hbits'))
          (tells_iff.mpr rfl)

end Status

namespace Verdict

/-- What a verdict is told as where the program had the terminal. -/
def attached (name : Text) : Verdict → Outcome
  | interrupted => (LineError.interrupted name).outcome
  | succeeded => .success []
  | failed description => .failure ("Command exited with error: " ++ description)

/-- What a verdict is told as where `shown` is to be seen of the program's output. -/
def captured (name shown : Text) : Verdict → Outcome
  | interrupted => (LineError.interrupted name).outcome
  | succeeded => .success shown
  | failed description => .failure ("Command failed with code " ++ description ++ "\n" ++ shown)

/-- Verdicts are told apart by what they are told as. -/
theorem attached_inj {name : Text} {v w : Verdict} : v.attached name = w.attached name ↔ v = w := by
  refine ⟨fun h => ?_, congrArg _⟩
  match v, w with
  | interrupted, interrupted | succeeded, succeeded => rfl
  | interrupted, succeeded | succeeded, interrupted | succeeded, failed _ | failed _, succeeded =>
    cases h
  | interrupted, failed d => exact absurd h.symm (LineError.exitStatus_ne_interrupted name d)
  | failed d, interrupted => exact absurd h (LineError.exitStatus_ne_interrupted name d)
  | failed d, failed e => rw [List.append_cancel_left (Outcome.failure.inj h)]

theorem captured_inj {name shown : Text} {v w : Verdict} :
    v.captured name shown = w.captured name shown ↔ v = w := by
  refine ⟨fun h => ?_, congrArg _⟩
  match v, w with
  | interrupted, interrupted | succeeded, succeeded => rfl
  | interrupted, succeeded | succeeded, interrupted | succeeded, failed _ | failed _, succeeded =>
    cases h
  | interrupted, failed d =>
    exact absurd h.symm (LineError.failedWithOutput_ne_interrupted name d shown)
  | failed d, interrupted => exact absurd h (LineError.failedWithOutput_ne_interrupted name d shown)
  | failed d, failed e =>
    have hfront := List.append_cancel_right (List.append_cancel_right (Outcome.failure.inj h))
    rw [List.append_cancel_left hfront]

end Verdict

theorem judgeAttached_eq (name : Text) (status : Status) (interrupt : Bool) :
    judgeAttached name status interrupt = (status.verdict interrupt).attached name := by
  rw [judgeAttached, Status.verdict, apply_ite (Verdict.attached name),
    apply_ite (Verdict.attached name)]
  rfl

theorem judgeCaptured_eq (name : Text) (status : Status) (output : Text) (interrupt : Bool)
    (limit : Nat) : judgeCaptured name (.exited status output) interrupt limit =
      (status.verdict interrupt).captured name (Text.trimEnd output) := by
  rw [judgeCaptured, Status.verdict, apply_ite (Verdict.captured name _),
    apply_ite (Verdict.captured name _)]
  rfl

/-- A program's end is judged by the same rules whether it had the terminal or its output was
captured: what is said is what one and the same verdict is told as. The rules always come to a
verdict, and every status tells one fate. A program that takes too long is told by its time limit,
interrupted or not. -/
theorem judged_alike (name output : Text) (status : Status) (interrupt : Bool) (limit : Nat) :
    (∃ verdict, status.Judged interrupt verdict) ∧
    (∃ fate, ∀ other, status.Tells other ↔ other = fate) ∧
    (∀ verdict, judgeAttached name status interrupt = verdict.attached name ↔
      status.Judged interrupt verdict) ∧
    (∃ shown, output.TrimsTo shown ∧
      ∀ verdict, judgeCaptured name (.exited status output) interrupt limit =
        verdict.captured name shown ↔ status.Judged interrupt verdict) ∧
    judgeCaptured name .timedOut interrupt limit =
      .failure ("Command '" ++ name ++ "' exceeded time limit of " ++ Text.decimal (limit / 1000) ++
        " seconds") := by
  refine ⟨⟨_, Status.judged_iff.mpr rfl⟩, ⟨_, fun _ => Status.tells_iff⟩, fun verdict => ?_,
    ⟨Text.trimEnd output, Text.trimsTo_trimEnd output, fun verdict => ?_⟩, rfl⟩
  · rw [judgeAttached_eq, Verdict.attached_inj, Status.judged_iff, eq_comm]
  · rw [judgeCaptured_eq, Verdict.captured_inj, Status.judged_iff, eq_comm]

end Program

end LineShell

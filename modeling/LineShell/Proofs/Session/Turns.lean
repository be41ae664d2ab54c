import LineShell.CommandLine
import LineShell.Proofs.Session.Colours
import LineShell.Proofs.Session.Effects
import LineShell.Proofs.Session.Intake
import LineShell.Proofs.Text.Trim

/-! The turns that a session takes: a line is read, passed over or carried out, and reported, and
whatever becomes of it the next turn follows, until a line tells the session to end. A line that
asks for memory that is not granted ends the whole shell. -/

namespace LineShell

namespace Session

open Program

namespace Printed

theorem append_assoc (p q r : Printed) : p ++ q ++ r = p ++ (q ++ r) :=
  congrArg₂ Printed.mk (List.append_assoc ..) (List.append_assoc ..)

theorem append_nil (p : Printed) : p ++ {} = p :=
  congrArg₂ Printed.mk (List.append_nil _) (List.append_nil _)

/-- What is printed one after another. -/
def all (printed : List Printed) : Printed :=
  printed.foldr (· ++ ·) {}

theorem all_singleton (p : Printed) : all [p] = p :=
  p.append_nil

theorem all_cons (p : Printed) (printed : List Printed) : all (p :: printed) = p ++ all printed :=
  rfl

end Printed

/-- A line as it is meant, from the text that is read. -/
@[irreducible]
def meant (raw : Text) : Text :=
  Text.trim (Text.withoutBackspaces raw)

theorem meant_eq_trim {raw : Text} (h : Text.backspace ∉ raw) : meant raw = Text.trim raw := by
  rw [meant, Text.withoutBackspaces_eq_self h]

/-- Whether a line tells the session to end. -/
def stops (line : Text) : Bool :=
  Text.lower line = "exit".toList || Text.lower line = "quit".toList

theorem isExit_eq_stops {line : Text} (h : Text.trim line = line) : isExit line = stops line := by
  rw [Bool.eq_iff_iff, isExit_iff, stops, h]
  simp

section Submit

variable (host : Host) (s : Session) (around : Surroundings) (line : Text)

/-- The directory that a line enters, if it is a `cd` that comes to its end. -/
def entered? : Option Path :=
  if isExit line then none
  else match Line.parse line with
  | .ok (i, _) => if i.key = "cd".toList then (s.entering around i).toOption else none
  | .error _ => none

theorem taken_submit : Taken host s.input (s.submit host around line).1.input :=
  taken_execute host { s with history := s.history.add line } around line

theorem ended_submit (hgoes : s.ended = false) :
    (s.submit host around line).1.ended = isExit line := by
  have htouches := execute_touches host { s with history := s.history.add line } around line
  rw [submit]
  cases hexit : isExit line with
  | true => rw [htouches.ends ((isExit_iff line).mp hexit)]
  | false =>
    refine (htouches.stays fun hends => ?_).trans hgoes
    rw [(isExit_iff line).mpr hends] at hexit
    cases hexit

/-- A line leaves the directory if it is a `cd` that comes to its end, and for nothing else. -/
theorem cwd_submit : (s.submit host around line).1.cwd = (s.entered? around line).getD s.cwd := by
  have htouches := execute_touches host { s with history := s.history.add line } around line
  rw [submit]
  rcases { s with history := s.history.add line }.execute_cases host around line with
    ⟨hexit, hout⟩ | ⟨_, hexit, hparse, hout⟩ | ⟨i, r, hexit, hparse, -⟩
  · rw [hout, entered?, if_pos hexit]
    rfl
  · rw [hout, entered?, hparse, ite_self]
    rfl
  · have hentered : s.entered? around line =
        if i.key = "cd".toList then (s.entering around i).toOption else none := by
      rw [entered?, hexit, hparse]
      rfl
    rw [hentered]
    split
    case isTrue hcd =>
      cases hgiven : s.entering around i with
      | ok target => exact (htouches.enters i r target hexit hparse hcd hgiven).1
      | error f => exact htouches.refused i r f hparse hcd hgiven
    case isFalse hcd =>
      by_contra hleft
      obtain ⟨i', r', _, hparse', hcd', -⟩ := htouches.leaves hleft
      obtain ⟨rfl, -⟩ := Prod.mk.inj (Except.ok.inj (hparse.symm.trans hparse'))
      exact hcd hcd'

end Submit

/-- The prompt, where it is printed. -/
def asked (around : Surroundings) (prompting : Bool) (s : Session) : Printed :=
  if prompting then .toOut (s.prompt around) else {}

/-- A line that a session has read, and the session as it was then. -/
structure Turn where
  before : Session
  raw : Text

namespace Turn

variable (host : Host) (around : Surroundings) (t : Turn)

def line : Text :=
  meant t.raw

/-- The session with the line carried out, and what came of it. -/
def submitted : Session × Ending :=
  t.before.submit host around t.line

/-- The session after the turn. Where nothing stands on the line, it is passed over. -/
def after : Session :=
  if t.line.isEmpty then t.before else (t.before.runLine host around t.line).1

/-- The report on the line. -/
def report : Printed :=
  Session.report ((t.after host around).colours around) t.line (t.submitted host around).2

/-- What is printed in the turn: the prompt, all that went to the terminal directly, and the
report. -/
def printed (prompting : Bool) : Printed :=
  asked around prompting t.before ++
    if t.line.isEmpty then {}
    else (t.submitted host around).1.drain.2 ++ t.report host around

/-- What a line does that is carried out. -/
structure Sound : Prop where
  /-- The line is remembered before anything else is done. -/
  records : t.submitted host around =
    { t.before with history := t.before.history.add t.line }.execute host around t.line
  /-- Nothing is forgotten or added while it is carried out, even if that comes to no end. -/
  history : (t.after host around).history = t.before.history.add t.line
  cwd : (t.after host around).cwd = (t.before.entered? around t.line).getD t.before.cwd
  ended : (t.after host around).ended = stops t.line
  silent : (t.submitted host around).2 = .answered (.success []) → t.report host around = {}
  told : ∀ m, m ≠ [] → (t.submitted host around).2 = .answered (.success m) →
    t.report host around = .toOut (m ++ "\n")
  failed : ∀ m, (t.submitted host around).2 = .answered (.failure m) →
    t.report host around = .toErr (errorLine ((t.after host around).colours around) m)
  crashed : ∀ why, (t.submitted host around).2 = .crashed why →
    t.report host around = .toErr (errorLine ((t.after host around).colours around)
      ("unexpected failure while running '" ++ t.line ++ "'"))

theorem trim_line : Text.trim t.line = t.line := by
  rw [line, meant, Text.trim_trim]

theorem after_of_blank (h : t.line = []) : t.after host around = t.before :=
  if_pos (List.isEmpty_iff.mpr h)

theorem after_of_line (h : t.line ≠ []) :
    t.after host around = (t.before.runLine host around t.line).1 :=
  if_neg fun hempty => h (List.isEmpty_iff.mp hempty)

/-- A line is carried out as the loop does it. -/
theorem runLine_eq (h : t.line ≠ []) :
    t.before.runLine host around t.line =
      (t.after host around, (t.submitted host around).1.drain.2 ++ t.report host around) := by
  rw [report, t.after_of_line host around h, submitted]
  rfl

theorem taken_after : Taken host t.before.input (t.after host around).input := by
  by_cases h : t.line = []
  · rw [t.after_of_blank host around h]
    exact .none
  · rw [t.after_of_line host around h]
    exact t.before.taken_submit host around t.line

theorem history_after : (t.after host around).history = t.before.history.add t.line := by
  by_cases h : t.line = []
  · rw [t.after_of_blank host around h, h]
    rfl
  · rw [t.after_of_line host around h]
    exact (execute_touches host t.before around t.line).submits

theorem cwd_after :
    (t.after host around).cwd = (t.before.entered? around t.line).getD t.before.cwd := by
  by_cases h : t.line = []
  · rw [t.after_of_blank host around h, h]
    rfl
  · rw [t.after_of_line host around h]
    exact t.before.cwd_submit host around t.line

theorem ended_after (hgoes : t.before.ended = false) :
    (t.after host around).ended = stops t.line := by
  by_cases h : t.line = []
  · rw [t.after_of_blank host around h, h, hgoes]
    decide
  · rw [t.after_of_line host around h, ← isExit_eq_stops t.trim_line]
    exact t.before.ended_submit host around t.line hgoes

theorem sound (hgoes : t.before.ended = false) : t.Sound host around where
  records := by rw [submitted, submit]
  history := t.history_after host around
  cwd := t.cwd_after host around
  ended := t.ended_after host around hgoes
  silent hout := by rw [report, hout]; rfl
  told m hm hout := by
    rw [report, hout]
    cases m with
    | nil => exact absurd rfl hm
    | cons c m => rfl
  failed m hout := by rw [report, hout]; rfl
  crashed why hout := by rw [report, hout]; rfl

end Turn

/-- A session takes turns. Between two of them nothing changes but what is left to be read. -/
inductive Takes (host : Host) (around : Surroundings) : Session → List Turn → Session → Prop
  | none (s : Session) (i : Input) : Takes host around s [] { s with input := i }
  | turn {s last : Session} {turns : List Turn} (i : Input) (raw : Text)
      (h : Takes host around (Turn.after host around ⟨{ s with input := i }, raw⟩) turns last) :
      Takes host around s (⟨{ s with input := i }, raw⟩ :: turns) last

namespace Takes

variable {host : Host} {around : Surroundings} {s last : Session} {turns : List Turn}

theorem split {done todo : List Turn} (h : Takes host around s (done ++ todo) last) :
    ∃ m, Takes host around s done m ∧ Takes host around m todo last := by
  induction done generalizing s with
  | nil => exact ⟨s, .none s s.input, h⟩
  | cons t done ih =>
    cases h with
    | turn i raw h =>
      obtain ⟨m, hdone, htodo⟩ := ih h
      exact ⟨m, .turn i raw hdone, htodo⟩

/-- The history is that of the lines of all turns. -/
theorem history (h : Takes host around s turns last) :
    last.history = (turns.map Turn.line).foldl History.add s.history := by
  induction h with
  | none => rfl
  | turn i raw _ ih => rw [ih, Turn.history_after, List.map_cons, List.foldl_cons]

/-- The directory is the one that was last entered. -/
theorem cwd (h : Takes host around s turns last) :
    last.cwd = turns.foldl (fun p t => (t.before.entered? around t.line).getD p) s.cwd := by
  induction h with
  | none => rfl
  | turn i raw _ ih => rw [ih, Turn.cwd_after, List.foldl_cons]

end Takes

/-- What there is to be read along a session, all of it readable. A program that a line runs may
take some of what is left; once the session is over no line runs any. -/
inductive Offers (host : Host) (around : Surroundings) : Session → List Text → Prop
  | nothing {s : Session} (h : s.input.readLine.1 = .nothing) : Offers host around s []
  | line {s : Session} {i : Input} {raw : Text} {rest : List Text}
      (hread : s.input.readLine = (.line raw, i))
      (h : Offers host around
        (if s.isOver then { s with input := i }
          else Turn.after host around ⟨{ s with input := i }, raw⟩) rest) :
      Offers host around s (raw :: rest)

/-- Along the lines of a session, one asks for memory that is not granted. -/
def Founders (host : Host) (around : Surroundings) (s : Session) : Prop :=
  ∃ s' line, Reads host around s s' line ∧ LineAborts around s'.workspace line

/-- The lines of a session that are carried out: those that are not blank, up to one that tells the
session to end. -/
def executed (raws : List Text) : List Text :=
  let lines := (raws.map meant).filter (!·.isEmpty)
  lines.take (lines.findIdx stops + 1)

section

variable {host : Host} {around : Surroundings} {prompting : Bool} {s last : Session}
  {turns : List Turn} {raws : List Text}

theorem executed_cons (raw : Text) (rest : List Text) :
    executed (raw :: rest) =
      [meant raw].filter (!·.isEmpty) ++ if stops (meant raw) then [] else executed rest := by
  have hblank : (meant raw).isEmpty = true → stops (meant raw) = false := by
    intro h
    rw [List.isEmpty_iff.mp h]
    decide
  cases hempty : (meant raw).isEmpty with
  | true => simp [executed, hempty, hblank hempty]
  | false => cases hstops : stops (meant raw) <;> simp [executed, hempty, List.findIdx_cons, hstops]

/-- There are no more lines than there are bytes. -/
theorem Offers.length_le (h : Offers host around s raws) : raws.length ≤ s.input.size := by
  induction h with
  | nothing => exact Nat.zero_le _
  | @line s i raw rest hread _ ih =>
    have hline := Input.size_readLine_lt hread
    refine Nat.le_trans (Nat.succ_le_succ (ih.trans ?_)) hline
    split
    case isTrue => exact Nat.le_refl _
    case isFalse => exact (Turn.taken_after host around ⟨_, _⟩).size_le

theorem readLine_meant {i : Input} {raw : Text} (hread : s.input.readLine = (.line raw, i)) :
    s.readLine = (.line (meant raw), { s with input := i }) := by
  rw [readLine, hread, meant]

theorem prompt_readLine (s : Session) (around : Surroundings) :
    s.readLine.2.prompt around = s.prompt around := by
  rw [readLine]
  split <;> rfl

theorem readLine_nothing (h : s.input.readLine.1 = .nothing) :
    s.readLine = (.nothing, { s with input := s.input.readLine.2 }) := by
  rw [readLine]
  split
  case h_1 heq =>
    rw [heq] at h
    cases h
  case h_2 heq => rw [← h, heq]

theorem ended_of_isOver (h : s.isOver = false) : s.ended = false :=
  (Bool.or_eq_false_iff.mp h).1

/-- One turn of the loop, and what follows it. -/
theorem runLines_turn {t : Turn} (hread : s.readLine = (.line t.line, t.before))
    (hgoes : t.before.isOver = false) (n : Nat) :
    runLines host around prompting (n + 1) s =
      if (t.after host around).isOver then (t.after host around, t.printed host around prompting)
      else
        let r := runLines host around prompting n (t.after host around)
        (r.1, t.printed host around prompting ++ r.2) := by
  have hprompt : s.prompt around = t.before.prompt around := by
    rw [← s.prompt_readLine around, hread]
  rw [runLines, hread, hprompt, Turn.printed, asked]
  by_cases hblank : t.line = []
  · rw [t.after_of_blank host around hblank, hgoes]
    simp only [hblank, List.isEmpty_nil, if_true, Printed.append_nil, Bool.false_eq_true, if_false]
  · simp only [List.isEmpty_iff, hblank, if_false, t.runLine_eq host around hblank]

theorem not_reads_of_nothing (h : s.input.readLine.1 = .nothing) {line : Text} :
    ¬Reads host around s last line := by
  intro hreads
  have hnone := readLine_nothing h
  cases hreads with
  | here hread | blank hread | later hread =>
    rw [hread] at hnone
    cases hnone

theorem reads_blank_iff {s' : Session} {line : Text} (hread : s.readLine = (.line [], s')) :
    Reads host around s last line ↔ Reads host around s' last line := by
  constructor
  · intro hreads
    cases hreads with
    | here hread' hne | later hread' hne =>
      rw [hread] at hread'
      cases hread'
      exact absurd rfl hne
    | blank hread' h =>
      rw [hread] at hread'
      cases hread'
      exact h
  · exact .blank hread

theorem reads_line_iff {s' : Session} {first line : Text} (hread : s.readLine = (.line first, s'))
    (hne : first ≠ []) :
    Reads host around s last line ↔ last = s' ∧ line = first ∨
      (s'.runLine host around first).1.isOver = false ∧
        Reads host around (s'.runLine host around first).1 last line := by
  constructor
  · intro hreads
    cases hreads with
    | here hread' =>
      rw [hread] at hread'
      cases hread'
      exact .inl ⟨rfl, rfl⟩
    | blank hread' =>
      rw [hread] at hread'
      cases hread'
      exact absurd rfl hne
    | later hread' _ hgoes h =>
      rw [hread] at hread'
      cases hread'
      exact .inr ⟨hgoes, h⟩
  · rintro (⟨rfl, rfl⟩ | ⟨hgoes, h⟩)
    · exact .here hread hne
    · exact .later hread hne hgoes h

/-- The loop comes to the line of a turn, and to those that follow it. -/
theorem reads_turn_iff {t : Turn} {line : Text} (hread : s.readLine = (.line t.line, t.before))
    (hgoes : t.before.isOver = false) :
    Reads host around s last line ↔ (t.line ≠ [] ∧ last = t.before ∧ line = t.line) ∨
      (t.after host around).isOver = false ∧ Reads host around (t.after host around) last line := by
  by_cases hblank : t.line = []
  · simp [reads_blank_iff (hblank ▸ hread), hblank, t.after_of_blank host around hblank, hgoes]
  · simp [reads_line_iff hread hblank, hblank, t.after_of_line host around hblank]

/-- A turn ends the whole shell if its line asks for memory that is not granted. -/
theorem Turn.aborted_after_iff (t : Turn) (hgoes : t.before.isOver = false) :
    (t.after host around).aborted = true ↔
      t.line ≠ [] ∧ LineAborts around t.before.workspace t.line := by
  by_cases hblank : t.line = []
  · simp [t.after_of_blank host around hblank, hblank, aborted_of_isOver hgoes]
  · rw [t.after_of_line host around hblank, and_iff_right hblank]
    exact ({ t.before with history := t.before.history.add t.line }.endsAs_execute host around
      t.line).isAborted_iff

/-- Whether the shell is ended on the way is told turn by turn. -/
theorem founders_turn_iff {t : Turn} (hread : s.readLine = (.line t.line, t.before))
    (hgoes : t.before.isOver = false) :
    Founders host around s ↔ (t.after host around).aborted = true ∨
      (t.after host around).isOver = false ∧ Founders host around (t.after host around) := by
  simp only [Founders, reads_turn_iff hread hgoes, t.aborted_after_iff hgoes, or_and_right,
    exists_or, and_assoc, exists_and_left, exists_eq_left]

/-- The lines that the loop comes to are to be carried out. -/
theorem Offers.mem_executed (h : Offers host around s raws) (hs : s.isOver = false) {line : Text}
    (hreads : Reads host around s last line) : line ∈ executed raws := by
  induction h with
  | nothing h => exact absurd hreads (not_reads_of_nothing h)
  | @line s i raw rest hread _ ih =>
    let t : Turn := ⟨{ s with input := i }, raw⟩
    have hgoes : t.before.isOver = false := hs
    have hexecuted : executed (raw :: rest) =
        [t.line].filter (!·.isEmpty) ++ if stops t.line then [] else executed rest :=
      executed_cons raw rest
    rw [hexecuted]
    rcases (reads_turn_iff (t := t) (readLine_meant hread) hgoes).mp hreads with
      ⟨hne, -, rfl⟩ | ⟨hover, hlater⟩
    · simp [hne]
    · rw [if_neg (Bool.eq_false_iff.mp hs)] at ih
      have hended := t.ended_after host around (ended_of_isOver hgoes)
      have hstops : stops t.line = false := hended ▸ ended_of_isOver hover
      rw [if_neg (Bool.eq_false_iff.mp hstops)]
      exact List.mem_append_right _ (ih hover hlater)

/-- The loop takes a turn for each line, until one of them tells the session to end or ends the
whole shell. -/
theorem Offers.exists_turns (h : Offers host around s raws) (prompting : Bool)
    (hs : s.isOver = false) {n : Nat} (hn : raws.length < n) :
    ∃ turns last, Takes host around s turns last ∧ turns.map Turn.raw <+: raws ∧
      (last.aborted = false → (turns.map Turn.line).filter (!·.isEmpty) = executed raws) ∧
      (∀ t ∈ turns, t.before.ended = false) ∧
      (last.aborted = true ↔ Founders host around s) ∧
      runLines host around prompting n s =
        (last, .all (turns.map fun t => t.printed host around prompting) ++
          if last.isOver then {} else asked around prompting last) := by
  induction h generalizing n with
  | @nothing s h =>
    obtain ⟨n, rfl⟩ := Nat.exists_eq_add_of_lt hn
    refine ⟨[], _, .none s s.input.readLine.2, List.nil_prefix, fun _ => rfl, by simp,
      iff_of_false ?_ fun ⟨_, _, hreads, _⟩ => not_reads_of_nothing h hreads, ?_⟩
    · exact Bool.eq_false_iff.mp (aborted_of_isOver hs)
    · have hlast : { s with input := s.input.readLine.2 }.isOver = false := hs
      rw [List.length_nil, Nat.zero_add, runLines, readLine_nothing h]
      dsimp only
      rw [hlast]
      rfl
  | @line s i raw rest hread _ ih =>
    obtain ⟨n, rfl⟩ := Nat.exists_eq_add_of_lt hn
    let t : Turn := ⟨{ s with input := i }, raw⟩
    have hgoes : t.before.isOver = false := hs
    have hended := t.ended_after host around (ended_of_isOver hgoes)
    have hexecuted : executed (raw :: rest) =
        [t.line].filter (!·.isEmpty) ++ if stops t.line then [] else executed rest :=
      executed_cons raw rest
    have hreads : s.readLine = (.line t.line, t.before) := readLine_meant hread
    rw [runLines_turn hreads hgoes, founders_turn_iff hreads hgoes]
    cases hover : (t.after host around).isOver with
    | true =>
      refine ⟨[t], t.after host around, .turn i raw (.none _ _), ⟨rest, rfl⟩, fun hlives => ?_,
        by simpa using ended_of_isOver hgoes, by simp, ?_⟩
      · -- the session is over, and not because the shell was ended
        have hstops : stops t.line = true := by
          rw [← hended]
          simpa [isOver, hlives] using hover
        rw [hexecuted, if_pos hstops, List.append_nil]
        rfl
      · rw [if_pos rfl, if_pos hover, List.map_singleton, Printed.all_singleton,
          Printed.append_nil]
    | false =>
      rw [if_neg (Bool.eq_false_iff.mp hs)] at ih
      obtain ⟨turns, last, htakes, hprefix, hlines, hbefore, hfounders, hrun⟩ :=
        ih hover (n := (raw :: rest).length + n) (by simp; omega)
      have hstops : stops t.line = false := hended ▸ ended_of_isOver hover
      refine ⟨t :: turns, last, .turn i raw htakes, List.prefix_cons_inj raw |>.mpr hprefix,
        fun hlives => ?_, List.forall_mem_cons.mpr ⟨ended_of_isOver hgoes, hbefore⟩, ?_, ?_⟩
      · rw [hexecuted, if_neg (Bool.eq_false_iff.mp hstops), ← hlines hlives, ← List.filter_append]
        rfl
      · rw [hfounders, aborted_of_isOver hover]
        exact ⟨fun h => .inr ⟨rfl, h⟩, fun h => (h.resolve_left Bool.false_ne_true).2⟩
      · rw [if_neg Bool.false_ne_true, hrun, List.map_cons, Printed.all_cons, Printed.append_assoc]

/-- Where programs take nothing, all lines are there, whatever they are. -/
theorem offers_of_abstains (habstains : Abstains host) (hraws : ∀ raw ∈ raws, '\n' ∉ raw)
    (hbytes : s.input.bytes = raws.flatMap fun raw => Text.encode raw ++ [10]) :
    Offers host around s (raws.map Text.dropReturn) := by
  induction raws generalizing s with
  | nil => exact .nothing (Input.readLine_of_bytes_nil hbytes)
  | cons raw rest ih =>
    obtain ⟨hraw, hrest⟩ := List.forall_mem_cons.mp hraws
    rw [List.flatMap_cons, List.append_assoc] at hbytes
    obtain ⟨i, hread, hi⟩ := Input.readLine_of_bytes hbytes (Text.lineFeed_notMem_encode hraw)
    refine .line hread (ih hrest ?_)
    split
    case isTrue => exact hi
    case isFalse => rwa [(Turn.taken_after host around ⟨_, _⟩).eq_of_abstains habstains]

end

/-- The turns of a session that goes on until it is told to end, from what there is to be read. -/
structure Unbroken (host : Host) (around : Surroundings) (s : Session) (raws : List Text)
    (turns : List Turn) (last : Session) : Prop where
  takes : Takes host around s turns last
  reads : turns.map Turn.raw <+: raws
  lines : (turns.map Turn.line).filter (!·.isEmpty) = executed raws
  sound : ∀ t ∈ turns, t.line ≠ [] → t.Sound host around
  /-- Wherever the turns are cut, the history is that of the lines so far, and the directory is the
  one that was entered last. -/
  holds : ∀ done todo, turns = done ++ todo → ∃ m,
    Takes host around s done m ∧ Takes host around m todo last ∧
      m.history = (done.map Turn.line).foldl History.add s.history ∧
      m.cwd = done.foldl (fun p t => (t.before.entered? around t.line).getD p) s.cwd

end Session

namespace CommandLine

open Program Session

/-- The session that the shell begins with. -/
def begun (cwd : Path) (tree : FileTree) (given : Text.Bytes) : Session :=
  { cwd, tree, input := { left := given } }

/-- What comes of a session that takes all its turns. -/
def finished (host : Host) (around : Surroundings) (turns : List Turn) (last : Session) : Result :=
  { code := some 0
    printed := .toOut (banner around.colours) ++
      (.all (turns.map fun t => t.printed host around (prompting around.environment)) ++
        (if last.ended then {} else asked around (prompting around.environment) last) ++
        .toOut "Goodbye!\n")
    tree := last.tree }

theorem run_session_eq {host : Host} {around : Surroundings} {current cwd : Path} (tree : FileTree)
    (given : Text.Bytes) (hstart : Session.startDir around.home? (.ok current) = .ok cwd) :
    run host around tree (.ok current) [] given =
      { runSession host around (begun cwd tree given) with
        printed := .toOut (banner around.colours) ++
          (runSession host around (begun cwd tree given)).printed } := by
  have hrequest : Request.ofArguments [] = .session := rfl
  rw [run, hrequest]
  dsimp only
  rw [hstart]
  rfl

/-- A line that asks for memory that is not granted leaves the shell without an exit code. -/
theorem code_eq_none_of_founders {host : Host} {around : Surroundings} {current cwd : Path}
    {tree : FileTree} {given : Text.Bytes} {raws : List Text}
    (hstart : Session.startDir around.home? (.ok current) = .ok cwd)
    (hoffers : Offers host around (begun cwd tree given) raws)
    (h : Founders host around (begun cwd tree given)) :
    (run host around tree (.ok current) [] given).code = none := by
  obtain ⟨turns, last, -, -, -, -, hfounders, hrun⟩ :=
    hoffers.exists_turns (prompting around.environment) rfl (Nat.lt_succ_of_le hoffers.length_le)
  rw [run_session_eq tree given hstart, runSession, hrun]
  dsimp only
  rw [if_pos (hfounders.mpr h)]

/-- Whatever the lines are that a session has to read, it carries out those that are not blank, one
after another, up to one that tells it to end, exactly if none of those that it comes to asks for
memory that is not granted; one that does ends the whole shell without an exit code. Each line is
remembered, then carried out, and reported once; errors and crashes leave the history and the
directory as they are, and the exit code is 0. -/
theorem run_unbroken_iff (host : Host) (around : Surroundings) :
    (∀ tree current cwd given raws,
      Session.startDir around.home? (.ok current) = .ok cwd →
      Offers host around (begun cwd tree given) raws →
      ((∃ turns last, Unbroken host around (begun cwd tree given) raws turns last ∧
          run host around tree (.ok current) [] given = finished host around turns last) ↔
        ∀ s line, Reads host around (begun cwd tree given) s line →
          ¬LineAborts around s.workspace line) ∧
      ((∃ s line, Reads host around (begun cwd tree given) s line ∧
          LineAborts around s.workspace line) →
        (run host around tree (.ok current) [] given).code = none)) ∧
    (Abstains host → ∀ tree cwd (raws : List Text), (∀ raw ∈ raws, '\n' ∉ raw) →
      Offers host around (begun cwd tree (raws.flatMap fun raw => Text.encode raw ++ [10]))
        (raws.map Text.dropReturn)) := by
  refine ⟨fun tree current cwd given raws hstart hoffers => ?_,
    fun habstains tree cwd raws hraws => offers_of_abstains habstains hraws rfl⟩
  obtain ⟨turns, last, htakes, hreads, hlines, hbefore, hfounders, hrun⟩ :=
    hoffers.exists_turns (prompting around.environment) rfl (Nat.lt_succ_of_le hoffers.length_le)
  have hcode := code_eq_none_of_founders hstart hoffers
  refine ⟨⟨?_, fun hall => ?_⟩, hcode⟩
  · rintro ⟨turns, last, -, hfinished⟩ s line hread haborts
    have hnone := hcode ⟨s, line, hread, haborts⟩
    rw [hfinished] at hnone
    cases hnone
  · have hlives : last.aborted = false := by
      rw [← Bool.not_eq_true, hfounders]
      exact fun ⟨s, line, hread, haborts⟩ => hall s line hread haborts
    refine ⟨turns, last, ⟨htakes, hreads, hlines hlives,
      fun t ht _ => t.sound host around (hbefore t ht), ?_⟩, ?_⟩
    · rintro done todo rfl
      obtain ⟨m, hdone, htodo⟩ := htakes.split
      exact ⟨m, hdone, htodo, hdone.history, hdone.cwd⟩
    · rw [run_session_eq tree given hstart, runSession, hrun, finished]
      simp only [hlives, Session.isOver, Bool.or_false, Bool.false_eq_true, if_false]

/-- A line with blanks around it, a blank one, one that crashes, one that ends the session, and one
that is not carried out. -/
def fiveLines : List Text :=
  [" pwd ", "", crashingLine, "EXIT", "ls"]

/-- What is around a shell that is started in its home directory, the root. -/
def homeIsRoot : Surroundings :=
  { bareSurroundings with environment := [("HOME".toList, "/".toList)] }

theorem abstains_closesFile : Abstains closesFile := by
  rintro t launch r ⟨⟩
  rfl

theorem executed_fiveLines : executed fiveLines = [("pwd" : Text), crashingLine, "EXIT"] := by
  have hpwd : meant " pwd " = "pwd" := by
    rw [meant_eq_trim (by decide)]
    decide
  have hcrash : meant crashingLine = crashingLine := by rw [meant, trim_crashingLine]
  have hexit : meant "EXIT" = "EXIT" := by
    rw [meant_eq_trim (by decide)]
    decide
  have hblank : meant "" = "" := meant_eq_trim (by decide)
  simp only [fiveLines, executed_cons, hpwd, hblank, hcrash, hexit]
  decide

/-- None of these lines asks for memory that is not granted. The one that crashes asks for more than
can be asked for. -/
theorem not_lineAborts_fiveLines (around : Surroundings) (w : Commands.Workspace) :
    ∀ line ∈ executed fiveLines, ¬LineAborts around w line := by
  rw [executed_fiveLines]
  simp only [List.forall_mem_cons, List.not_mem_nil, false_imp_iff, implies_true, and_true]
  refine ⟨?_, ?_, ?_⟩
  · rintro ⟨-, i, r, hparse, haborts⟩
    have hpwd : Line.parse "pwd" = .ok ({ name := "pwd".toList, arguments := [] }, {}) := by decide
    obtain ⟨rfl, rfl⟩ := Prod.mk.inj (Except.ok.inj (hpwd.symm.trans hparse))
    exact haborts
  · rintro ⟨-, i, r, hparse, haborts⟩
    have htail : Line.parse crashingLine =
        .ok ({ name := "tail".toList, arguments := beyondMemory }, { output := some ['g'] }) := by
      decide
    obtain ⟨rfl, rfl⟩ := Prod.mk.inj (Except.ok.inj (htail.symm.trans hparse))
    obtain ⟨n, file, hargs, -, hfew, -⟩ := haborts
    have hmany : Commands.excerptOf .tail beyondMemory = .ok (18446744073709551615, ['f']) := by
      decide
    cases hmany.symm.trans hargs
    exact absurd hfew (by decide)
  · rintro ⟨hexit, -⟩
    exact absurd hexit (by decide)

theorem run_unbroken_fiveLines :
    let given := fiveLines.flatMap fun raw => Text.encode raw ++ [10]
    Session.startDir homeIsRoot.home? (.ok ['/']) = .ok ['/'] ∧
      Abstains closesFile ∧ (∀ raw ∈ fiveLines, '\n' ∉ raw) ∧
      Offers closesFile homeIsRoot (begun ['/'] (.single 0o644) given) fiveLines ∧
      ∃ turns last,
        Unbroken closesFile homeIsRoot (begun ['/'] (.single 0o644) given) fiveLines turns last ∧
        (turns.map Turn.line).filter (!·.isEmpty) = [("pwd" : Text), crashingLine, "EXIT"] ∧
        run closesFile homeIsRoot (.single 0o644) (.ok ['/']) [] given =
          finished closesFile homeIsRoot turns last := by
  intro given
  have hstart : Session.startDir homeIsRoot.home? (.ok ['/']) = .ok ['/'] := by
    decide
  have hraws : ∀ raw ∈ fiveLines, '\n' ∉ raw := by decide
  obtain ⟨hall, hoffers⟩ := run_unbroken_iff closesFile homeIsRoot
  have hkept : fiveLines.map Text.dropReturn = fiveLines := by decide
  have hfive := hoffers abstains_closesFile (.single 0o644) ['/'] fiveLines hraws
  rw [hkept] at hfive
  obtain ⟨turns, last, hturns, hrun⟩ :=
    (hall (.single 0o644) ['/'] ['/'] given fiveLines hstart hfive).1.mpr fun s line hreads =>
      not_lineAborts_fiveLines homeIsRoot s.workspace line (hfive.mem_executed rfl hreads)
  exact ⟨hstart, abstains_closesFile, hraws, hfive, turns, last, hturns,
    hturns.lines.trans executed_fiveLines, hrun⟩

/-- A line that shows more of a file than memory has room for, and one that is never come to. -/
def overdrawnLines : List Text :=
  ["tail -n 300000000000000000 f", "pwd"]

/-- The arguments of the first line. -/
def overdrawn : List Text :=
  ["-n".toList, "300000000000000000".toList, ['f']]

/-- The shell does not survive the first of these lines. -/
theorem run_overdrawnLines :
    let given := overdrawnLines.flatMap fun raw => Text.encode raw ++ [10]
    Session.startDir homeIsRoot.home? (.ok ['/']) = .ok ['/'] ∧
      Offers closesFile homeIsRoot (begun ['/'] (.single 0o644) given) overdrawnLines ∧
      executed overdrawnLines = overdrawnLines ∧
      (run closesFile homeIsRoot (.single 0o644) (.ok ['/']) [] given).code ≠ some 0 := by
  intro given
  have hstart : Session.startDir homeIsRoot.home? (.ok ['/']) = .ok ['/'] := by
    decide
  have htail : meant "tail -n 300000000000000000 f" = "tail -n 300000000000000000 f" := by
    rw [meant_eq_trim (by decide)]
    decide
  have hpwd : meant "pwd" = "pwd" := by
    rw [meant_eq_trim (by decide)]
    decide
  have hexecuted : executed overdrawnLines = overdrawnLines := by
    simp only [overdrawnLines, executed_cons, htail, hpwd]
    decide
  have hraws : ∀ raw ∈ overdrawnLines, '\n' ∉ raw := by decide
  have hoffers : Offers closesFile homeIsRoot (begun ['/'] (.single 0o644) given) overdrawnLines :=
    offers_of_abstains abstains_closesFile hraws rfl
  obtain ⟨i, hread, -⟩ := Input.readLine_of_bytes
    (i := (begun ['/'] (.single 0o644) given).input) (t := "tail -n 300000000000000000 f") rfl
    (Text.lineFeed_notMem_encode (by decide))
  have hreturn : Text.dropReturn "tail -n 300000000000000000 f" =
      "tail -n 300000000000000000 f" := by
    decide
  have hresolve : Path.resolve homeIsRoot.home? ['/'] ['f'] = ['/', 'f'] := by decide
  have haborts : LineAborts homeIsRoot
      { begun ['/'] (.single 0o644) given with input := i }.workspace
      "tail -n 300000000000000000 f" := by
    have hparse : Line.parse "tail -n 300000000000000000 f" =
        .ok ({ name := "tail".toList, arguments := overdrawn }, {}) := by
      decide
    refine ⟨by decide, _, _, hparse, 300000000000000000, ['f'], by decide, ?_, by decide, by decide⟩
    change FileTree.isFile _ (Path.resolve homeIsRoot.home? ['/'] ['f']) = true
    rw [hresolve]
    exact FileTree.isFile_of_find (FileTree.single_find 0o644 true)
  have hfounders : Founders closesFile homeIsRoot (begun ['/'] (.single 0o644) given) :=
    ⟨_, _, .here (htail ▸ hreturn ▸ readLine_meant hread) (by decide), haborts⟩
  refine ⟨hstart, hoffers, hexecuted, ?_⟩
  rw [code_eq_none_of_founders hstart hoffers hfounders]
  exact (Option.some_ne_none 0).symm

end CommandLine

end LineShell

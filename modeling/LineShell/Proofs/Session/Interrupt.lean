import LineShell.Session.Execute

/-! Which run an interrupt is charged to. Ctrl+C may arrive at any moment; a run is told that it was
interrupted if that was after the flag was cleared for it and before the flag was read for it, and
by no Ctrl+C from before. -/

namespace LineShell

namespace LineError

theorem exitStatus_ne_interrupted (name status : Text) :
    (exitStatus status).outcome ≠ (interrupted name).outcome := by
  intro h
  have hletter := congrArg (fun o : Outcome => o.message[8]?) h
  change some 'e' = some '\'' at hletter
  exact absurd hletter (by decide)

theorem failedWithOutput_ne_interrupted (name status output : Text) :
    (failedWithOutput status output).outcome ≠ (interrupted name).outcome := by
  intro h
  have hletter := congrArg (fun o : Outcome => o.message[8]?) h
  change some 'f' = some '\'' at hletter
  exact absurd hletter (by decide)

/-- Both messages begin with the name, and go on differently. -/
theorem timeout_ne_interrupted (name : Text) (limit : Nat) :
    (timeout name limit).outcome ≠ (interrupted name).outcome := by
  intro h
  have hmessage : (timeout name limit).message = (interrupted name).message :=
    congrArg Outcome.message h
  unfold message at hmessage
  dsimp only at hmessage
  rw [List.append_assoc, List.append_assoc] at hmessage
  have hletter := congrArg (fun t : Text => t[2]?) (List.append_cancel_left hmessage)
  change some 'e' = some 'i' at hletter
  exact absurd hletter (by decide)

end LineError

namespace Program

/-- How a run ended that was waited for: with the terminal, or for its output under a limit. -/
inductive Ended where
  | attached (status : Status)
  | captured (run : Captured) (limit : Nat)
  deriving DecidableEq

namespace Ended

/-- What the run comes to. -/
def judge (name : Text) (interrupt : Bool) : Ended → Outcome
  | attached status => judgeAttached name status interrupt
  | captured run limit => judgeCaptured name run interrupt limit

/-- How the program ended, unless it took too long. -/
def status? : Ended → Option Status
  | attached status => some status
  | captured (.exited status _) _ => some status
  | captured .timedOut _ => none

end Ended

theorem judgeAttached_eq_interrupted_iff (name : Text) (status : Status) (interrupt : Bool) :
    judgeAttached name status interrupt = (LineError.interrupted name).outcome ↔
      interrupt = true ∨ status.interrupted = true := by
  rw [judgeAttached, ← Bool.or_eq_true]
  split
  case isTrue h => exact iff_of_true rfl h
  case isFalse h =>
    refine iff_of_false ?_ h
    split
    case isTrue => exact nofun
    case isFalse => exact LineError.exitStatus_ne_interrupted name _

theorem judgeCaptured_eq_interrupted_iff (name : Text) (status : Status) (output : Text)
    (interrupt : Bool) (limit : Nat) :
    judgeCaptured name (.exited status output) interrupt limit =
        (LineError.interrupted name).outcome ↔
      interrupt = true ∨ status.interrupted = true := by
  rw [judgeCaptured, ← Bool.or_eq_true]
  split
  case isTrue h => exact iff_of_true rfl h
  case isFalse h =>
    refine iff_of_false ?_ h
    split
    case isTrue => exact nofun
    case isFalse => exact LineError.failedWithOutput_ne_interrupted name _ _

/-- A run is told that it was interrupted if the flag says so or the signal of Ctrl+C ended the
program, and never if it took too long. -/
theorem Ended.judge_eq_interrupted_iff (name : Text) (interrupt : Bool) (ended : Ended) :
    ended.judge name interrupt = (LineError.interrupted name).outcome ↔
      ∃ status, ended.status? = some status ∧ (interrupt = true ∨ status.interrupted = true) := by
  match ended with
  | .attached status =>
    simpa [judge, status?] using judgeAttached_eq_interrupted_iff name status interrupt
  | .captured (.exited status output) limit =>
    simpa [judge, status?] using
      judgeCaptured_eq_interrupted_iff name status output interrupt limit
  | .captured .timedOut limit =>
    refine iff_of_false (LineError.timeout_ne_interrupted name limit) ?_
    rintro ⟨status, ⟨⟩, -⟩

/-- What may come one after the other, as far as Ctrl+C is concerned. -/
inductive Moment where
  | ctrlC
  /-- A run begins: the flag is cleared, and a program is to be started. -/
  | begins (name : Text)
  /-- The program cannot be started, or not be waited for. -/
  | breaksOff (cause : IoError)
  /-- The program was waited for, and the flag is read. -/
  | ends (ended : Ended)
  /-- The shell asks a program something for itself. -/
  | probes
  deriving DecidableEq

/-- The flag, the run that is going on, and what the runs before it came to. -/
structure Desk where
  interrupt : Interrupt := {}
  running : Option Text := none
  outcomes : List Outcome := []

/-- One moment. There is no more than one run at a time, and nothing is asked meanwhile. -/
inductive Passes : Desk → Moment → Desk → Prop
  | ctrlC (d : Desk) : Passes d .ctrlC { d with interrupt := d.interrupt.arrive true }
  | begins {d : Desk} (h : d.running = none) (name : Text) :
    Passes d (.begins name) { d with interrupt := d.interrupt.take.2, running := some name }
  | breaksOff {d : Desk} {name : Text} (h : d.running = some name) (cause : IoError) :
    Passes d (.breaksOff cause)
      { d with running := none, outcomes := d.outcomes ++ [(LineError.spawn cause).outcome] }
  | ends {d : Desk} {name : Text} (h : d.running = some name) (ended : Ended) :
    Passes d (.ends ended)
      { interrupt := d.interrupt.take.2, running := none,
        outcomes := d.outcomes ++ [ended.judge name d.interrupt.take.1] }
  | probes {d : Desk} (h : d.running = none) : Passes d .probes d

/-- Any number of moments. -/
inductive Course : Desk → List Moment → Desk → Prop
  | nil (d : Desk) : Course d [] d
  | cons {d d' d'' : Desk} {m : Moment} {moments : List Moment} (h : Passes d m d')
    (hrest : Course d' moments d'') : Course d (m :: moments) d''

namespace Course

variable {d d' d'' : Desk} {moments moments' : List Moment}

theorem append (h : Course d moments d') (h' : Course d' moments' d'') :
    Course d (moments ++ moments') d'' := by
  induction h with
  | nil => exact h'
  | cons hstep _ ih => exact .cons hstep (ih h')

theorem append_cases (h : Course d (moments ++ moments') d'') :
    ∃ d', Course d moments d' ∧ Course d' moments' d'' := by
  induction moments generalizing d with
  | nil => exact ⟨d, .nil d, h⟩
  | cons m moments ih =>
    cases h with
    | cons hstep hrest =>
      obtain ⟨d', hfirst, hsecond⟩ := ih hrest
      exact ⟨d', .cons hstep hfirst, hsecond⟩

/-- Nothing is run until something is begun. -/
theorem idle (h : Course d moments d') (hidle : d.running = none)
    (hnone : ∀ name, .begins name ∉ moments) : d'.running = none := by
  induction h with
  | nil => exact hidle
  | cons hstep _ ih =>
    refine ih ?_ fun name hmem => hnone name (List.mem_cons_of_mem _ hmem)
    cases hstep with
    | ctrlC => exact hidle
    | begins => exact absurd List.mem_cons_self (hnone _)
    | breaksOff => rfl
    | ends => rfl
    | probes => exact hidle

/-- As long as a run is going on, the flag is raised by nothing but Ctrl+C, and not lowered. -/
theorem raised (h : Course d moments d') {name name' : Text} (hrun : d.running = some name)
    (hrun' : d'.running = some name') (hnone : ∀ name, .begins name ∉ moments) :
    name' = name ∧ d'.outcomes = d.outcomes ∧
      d'.interrupt.raised = (d.interrupt.raised || decide (.ctrlC ∈ moments)) := by
  induction h with
  | nil =>
    rw [hrun] at hrun'
    exact ⟨(Option.some.inj hrun').symm, rfl, by simp⟩
  | cons hstep hrest ih =>
    have hnone' := fun name hmem => hnone name (List.mem_cons_of_mem _ hmem)
    cases hstep with
    | ctrlC =>
      obtain ⟨hname, houtcomes, hraised⟩ := ih hrun hrun' hnone'
      exact ⟨hname, houtcomes, by rw [hraised]; simp [Interrupt.arrive]⟩
    | begins hidle =>
      rw [hrun] at hidle
      cases hidle
    | probes hidle =>
      rw [hrun] at hidle
      cases hidle
    -- the run is over, and no other one begins
    | breaksOff =>
      rw [hrest.idle rfl hnone'] at hrun'
      cases hrun'
    | ends =>
      rw [hrest.idle rfl hnone'] at hrun'
      cases hrun'

/-- What a run comes to depends on what has arrived since it began. -/
theorem charged {before during : List Moment} {name : Text} {ended : Ended}
    (h : Course d (before ++ .begins name :: (during ++ [.ends ended])) d')
    (hduring : ∀ name, .begins name ∉ during) :
    ∃ outcomes, d'.outcomes = outcomes ++ [ended.judge name (decide (.ctrlC ∈ during))] := by
  obtain ⟨d₁, -, h⟩ := h.append_cases
  cases h with
  | cons hbegins hrest =>
    obtain ⟨d₂, hrun, hends⟩ := hrest.append_cases
    cases hbegins with
    | begins =>
      cases hends with
      | cons hstep hnil =>
        cases hstep with
        | ends hname =>
          cases hnil
          obtain ⟨rfl, -, hraised⟩ := hrun.raised rfl hname hduring
          refine ⟨d₂.outcomes, ?_⟩
          simp only [Interrupt.take, hraised, Bool.false_or]

end Course

end Program

namespace Session

open Program

/-- The moments of one run, by what the host tells of the program. -/
def runMoments (name : Text) (told : Except IoError Report)
    (ended : Report → Except IoError Ended) : List Moment :=
  .begins name ::
    match told with
    | .error cause => [.breaksOff cause]
    | .ok report =>
      (if report.interrupt then [.ctrlC] else []) ++
        match ended report with
        | .error cause => [.breaksOff cause]
        | .ok ended => [.ends ended]

variable (host : Host) (s : Session) (around : Surroundings) (name : Text) (program : Path)
  (arguments : List Text) (outcomes : List Outcome)

/-- A run comes to what is judged by the flag as Ctrl+C leaves it after it was cleared. It stays as
it is where the program cannot be waited for. -/
theorem course_runMoments (i : Interrupt) (told : Except IoError Report)
    (ended : Report → Except IoError Ended) :
    Course { interrupt := i, outcomes } (runMoments name told ended)
      (match told with
        | .error cause => { outcomes := outcomes ++ [(LineError.spawn cause).outcome] }
        | .ok report =>
          match ended report with
          | .error cause =>
            { interrupt := ⟨report.interrupt⟩
              outcomes := outcomes ++ [(LineError.spawn cause).outcome] }
          | .ok ended => { outcomes := outcomes ++ [ended.judge name report.interrupt] }) := by
  refine .cons (.begins rfl name) ?_
  match told with
  | .error cause => exact .cons (.breaksOff rfl cause) (.nil _)
  | .ok report =>
    dsimp only
    cases report.interrupt with
    | false =>
      cases ended report with
      | error cause => exact .cons (.breaksOff rfl cause) (.nil _)
      | ok e => exact .cons (.ends rfl e) (.nil _)
    | true =>
      cases ended report with
      | error cause => exact .cons (.ctrlC _) (.cons (.breaksOff rfl cause) (.nil _))
      | ok e => exact .cons (.ctrlC _) (.cons (.ends rfl e) (.nil _))

theorem course_runAttached :
    Course { interrupt := s.interrupt, outcomes }
      (runMoments name (host s.tree (s.launch around program arguments none)) fun report =>
        .ok (.attached report.status))
      { interrupt := (s.runAttached host around name program arguments).1.interrupt
        outcomes := outcomes ++ [(s.runAttached host around name program arguments).2] } := by
  have hlaunch : host s.calm.tree (s.calm.launch around program arguments none) =
      host s.tree (s.launch around program arguments none) := rfl
  have hcourse := course_runMoments name outcomes s.interrupt
    (host s.tree (s.launch around program arguments none)) fun report =>
      .ok (.attached report.status)
  simp only [runAttached, hlaunch]
  cases htold : host s.tree (s.launch around program arguments none) with
  | error cause =>
    rw [htold] at hcourse
    exact hcourse
  | ok report =>
    rw [htold] at hcourse
    exact hcourse

theorem course_runCaptured :
    Course { interrupt := s.interrupt, outcomes }
      (runMoments name (host s.tree (s.launch around program arguments (some around.limit)))
        fun report => report.watched.run.map fun run => .captured run around.limit)
      { interrupt := (s.runCaptured host around name program arguments).1.interrupt
        outcomes := outcomes ++ [(s.runCaptured host around name program arguments).2] } := by
  have hlaunch : host s.calm.tree (s.calm.launch around program arguments (some around.limit)) =
      host s.tree (s.launch around program arguments (some around.limit)) := rfl
  have hcourse := course_runMoments name outcomes s.interrupt
    (host s.tree (s.launch around program arguments (some around.limit))) fun report =>
      report.watched.run.map fun run => .captured run around.limit
  simp only [runCaptured, hlaunch]
  cases htold : host s.tree (s.launch around program arguments (some around.limit)) with
  | error cause =>
    rw [htold] at hcourse
    exact hcourse
  | ok report =>
    rw [htold] at hcourse
    dsimp only at hcourse ⊢
    cases hrun : report.watched.run with
    | error cause | ok run =>
      rw [hrun] at hcourse
      exact hcourse

/-- A program that is asked something leaves the flag to whoever reads it next. -/
theorem course_capture (limit : Nat) :
    ∃ asked : List Moment, (∀ m ∈ asked, m = .probes ∨ m = .ctrlC) ∧
      Course { interrupt := s.interrupt, outcomes } asked
        { interrupt := (s.capture host around program arguments limit).1.interrupt, outcomes } := by
  rw [capture]
  split
  case h_1 => exact ⟨[.probes], by simp, .cons (.probes rfl) (.nil _)⟩
  case h_2 report _ =>
    cases harrives : report.interrupt with
    | false =>
      refine ⟨[.probes], by simp, ?_⟩
      have hflag : (s.after report).interrupt = s.interrupt := by
        simp [after, Interrupt.arrive, harrives]
      rw [hflag]
      exact .cons (.probes rfl) (.nil _)
    | true =>
      refine ⟨[.probes, .ctrlC], by simp, ?_⟩
      rw [after, harrives]
      exact .cons (.probes rfl) (.cons (.ctrlC _) (.nil _))

/-- Whatever went on before, a run that is waited for is told that it was interrupted just where
Ctrl+C arrived since the flag was cleared for it, or its signal ended the program; one that took
too long never is. The runs of a session, with the terminal and for their output, are such runs,
and what it asks of programs for itself comes in between. -/
theorem interrupted_iff_charged :
    (∀ (d d' : Desk) (before during : List Moment) (name : Text) (ended : Ended),
      Course d (before ++ .begins name :: (during ++ [.ends ended])) d' →
      (∀ name', .begins name' ∉ during) →
      ∃ outcomes o, d'.outcomes = outcomes ++ [o] ∧
        (o = (LineError.interrupted name).outcome ↔
          ∃ status, ended.status? = some status ∧
            (.ctrlC ∈ during ∨ status.interrupted = true))) ∧
    ∀ (host : Host) (s : Session) (around : Surroundings) (name : Text) (program : Path)
      (arguments : List Text) (outcomes : List Outcome),
      Course { interrupt := s.interrupt, outcomes }
        (runMoments name (host s.tree (s.launch around program arguments none)) fun report =>
          .ok (.attached report.status))
        { interrupt := (s.runAttached host around name program arguments).1.interrupt
          outcomes := outcomes ++ [(s.runAttached host around name program arguments).2] } ∧
      Course { interrupt := s.interrupt, outcomes }
        (runMoments name (host s.tree (s.launch around program arguments (some around.limit)))
          fun report => report.watched.run.map fun run => .captured run around.limit)
        { interrupt := (s.runCaptured host around name program arguments).1.interrupt
          outcomes := outcomes ++ [(s.runCaptured host around name program arguments).2] } ∧
      ∀ limit, ∃ asked : List Moment, (∀ m ∈ asked, m = .probes ∨ m = .ctrlC) ∧
        Course { interrupt := s.interrupt, outcomes } asked
          { interrupt := (s.capture host around program arguments limit).1.interrupt
            outcomes } := by
  refine ⟨fun d d' before during name ended h hduring => ?_,
    fun host s around name program arguments outcomes =>
      ⟨course_runAttached host s around name program arguments outcomes,
        course_runCaptured host s around name program arguments outcomes,
        course_capture host s around program arguments outcomes⟩⟩
  obtain ⟨outcomes, ho⟩ := h.charged hduring
  refine ⟨outcomes, _, ho, ?_⟩
  rw [ended.judge_eq_interrupted_iff, decide_eq_true_iff]

/-- One run after a Ctrl+C that was meant for something else, and one that a Ctrl+C hits. -/
def twoRuns : List Moment :=
  [.ctrlC, .begins "ping", .ends (.attached (.exited 0)), .probes, .begins "make", .ctrlC,
    .ends (.captured (.exited (.exited 0) "done".toList) usualLimit)]

theorem interrupted_iff_charged_twoRuns :
    (∃ d, Course {} (twoRuns.take 3) d ∧ ∃ outcomes o, d.outcomes = outcomes ++ [o] ∧
      o ≠ (LineError.interrupted "ping").outcome) ∧
    ∃ d, Course {} twoRuns d ∧ ∃ outcomes o, d.outcomes = outcomes ++ [o] ∧
      o = (LineError.interrupted "make").outcome := by
  have hping : Course {} (twoRuns.take 3) { outcomes := [.success []] } :=
    .cons (.ctrlC _) (.cons (.begins rfl _) (.cons (.ends rfl _) (.nil _)))
  have hmake : Course {} twoRuns
      { outcomes := [.success [], (LineError.interrupted "make").outcome] } :=
    hping.append (.cons (.probes rfl) (.cons (.begins rfl _) (.cons (.ctrlC _)
      (.cons (.ends rfl _) (.nil _)))))
  obtain ⟨outcomes, o, ho, hiff⟩ :=
    interrupted_iff_charged.1 {} _ [.ctrlC] [] "ping" (.attached (.exited 0)) hping nofun
  obtain ⟨outcomes', o', ho', hiff'⟩ :=
    interrupted_iff_charged.1 {} _
      [.ctrlC, .begins "ping", .ends (.attached (.exited 0)), .probes] [.ctrlC] "make"
      (.captured (.exited (.exited 0) "done".toList) usualLimit) hmake (by simp)
  refine ⟨⟨_, hping, outcomes, o, ho, fun heq => ?_⟩,
    ⟨_, hmake, outcomes', o', ho', hiff'.mpr ⟨_, rfl, .inl List.mem_cons_self⟩⟩⟩
  obtain ⟨status, hstatus, hcharged⟩ := hiff.mp heq
  cases hstatus
  exact absurd hcharged (by decide)

end Session

end LineShell

import LineShell.Session.Execute

/-! What a line leaves alone while it is carried out. Programs have the files and the streams of a
session and nothing else of it; a command of the shell may enter a directory besides. -/

namespace LineShell

/-- The directory that is entered from another one: none, that of the user, or one that is typed. -/
def Path.Entered (home : Option Path) (cwd cwd' : Path) : Prop :=
  cwd' = cwd ∨ home = some cwd' ∨ ∃ typed, cwd' = Path.resolve home cwd typed

namespace Commands

theorem entered_of_enter {s : Setting} {w : Workspace} {typed : Text} {target : Path}
    (h : enter s w typed = .ok target) : Path.Entered s.home w.cwd target := by
  simp only [enter] at h
  split at h
  case h_1 => cases h
  case h_2 p htarget =>
    have hp : p = target := by
      split at h
      case isTrue => cases h
      case isFalse =>
        split at h
        case isTrue => cases h
        case isFalse => exact Except.ok.inj h
    subst hp
    split at htarget
    case isTrue => exact .inr (.inl htarget)
    case isFalse => exact .inr (.inr ⟨typed, (Option.some.inj htarget).symm⟩)

theorem entered_cd (s : Setting) (arguments : List Text) (w : Workspace) :
    Path.Entered s.home w.cwd (cd s arguments w).1.cwd := by
  rw [cd]
  split
  case h_1 target h => exact entered_of_enter h
  case h_2 => exact .inl rfl

section

variable (s : Setting) (arguments : List Text) (w : Workspace)

theorem cwd_mkdir : (mkdir s arguments w).1.cwd = w.cwd := by
  rw [mkdir]
  split <;> rfl

theorem cwd_rmdir : (rmdir s arguments w).1.cwd = w.cwd := by
  rw [rmdir]
  split <;> rfl

theorem cwd_touch : (touch s arguments w).1.cwd = w.cwd := by
  rw [touch]
  split <;> rfl

theorem cwd_rm : (rm s arguments w).1.cwd = w.cwd := by
  rw [rm]
  split <;> rfl

theorem cwd_cp : (cp s arguments w).1.cwd = w.cwd := by
  rw [cp]
  split <;> rfl

theorem cwd_mv : (mv s arguments w).1.cwd = w.cwd := by
  rw [mv]
  split <;> rfl

/-- Only one command enters a directory. -/
theorem entered_run (c : Command) :
    Path.Entered s.home w.cwd (run s c arguments w).1.cwd := by
  cases c with
  | cd => exact entered_cd s arguments w
  | ls | pwd | cat | grep | find | head | tail | wc => exact .inl rfl
  | mkdir => exact .inl (cwd_mkdir s arguments w)
  | rmdir => exact .inl (cwd_rmdir s arguments w)
  | touch => exact .inl (cwd_touch s arguments w)
  | rm => exact .inl (cwd_rm s arguments w)
  | cp => exact .inl (cwd_cp s arguments w)
  | mv => exact .inl (cwd_mv s arguments w)

end

end Commands

namespace Session

open Program

/-- Sessions that differ in no more than what programs have: the files, the streams, and Ctrl+C. -/
structure Alike (s s' : Session) : Prop where
  cwd : s'.cwd = s.cwd
  history : s'.history = s.history
  ended : s'.ended = s.ended
  coloursOverride : s'.coloursOverride = s.coloursOverride

theorem Alike.refl (s : Session) : Alike s s :=
  ⟨rfl, rfl, rfl, rfl⟩

theorem Alike.trans {s s' s'' : Session} (h : Alike s s') (h' : Alike s' s'') : Alike s s'' :=
  ⟨h'.cwd.trans h.cwd, h'.history.trans h.history, h'.ended.trans h.ended,
    h'.coloursOverride.trans h.coloursOverride⟩

variable (host : Host) (s : Session) (around : Surroundings)

theorem alike_ask (what : Text) : Alike s (s.ask host around what).1 := by
  rw [ask]
  split
  case h_1 => exact .refl s
  case h_2 => exact ⟨rfl, rfl, rfl, rfl⟩

theorem alike_measure : Alike s (s.measure host around).1 := by
  have hcolumns := s.alike_ask host around "cols"
  rw [measure]
  split
  case h_1 => exact .refl s
  case h_2 =>
    split
    case h_1 h =>
      rw [h] at hcolumns
      exact hcolumns
    case h_2 s' _ h =>
      have hlines := s'.alike_ask host around "lines"
      rw [h] at hcolumns
      split
      case h_1 h' =>
        rw [h'] at hlines
        exact hcolumns.trans hlines
      case h_2 h' =>
        rw [h'] at hlines
        exact hcolumns.trans hlines

theorem alike_runAttached (name : Text) (program : Path) (arguments : List Text) :
    Alike s (s.runAttached host around name program arguments).1 := by
  simp only [runAttached]
  split <;> exact ⟨rfl, rfl, rfl, rfl⟩

theorem alike_runCaptured (name : Text) (program : Path) (arguments : List Text) :
    Alike s (s.runCaptured host around name program arguments).1 := by
  simp only [runCaptured]
  split
  case h_1 => exact ⟨rfl, rfl, rfl, rfl⟩
  case h_2 => split <;> exact ⟨rfl, rfl, rfl, rfl⟩

theorem alike_runProgram (name : Text) (arguments : List Text) :
    Alike s (s.runProgram host around name arguments).1 := by
  rw [runProgram]
  split
  case h_1 => exact .refl s
  case h_2 =>
    split
    case isTrue => exact alike_runAttached ..
    case isFalse => exact alike_runCaptured ..

theorem alike_probe (program : Path) (arguments : List Text) :
    Alike s (s.probe host around program arguments).1 := by
  have hcapture : Alike s (s.capture host around program arguments probeLimit).1 := by
    rw [capture]
    split <;> exact ⟨rfl, rfl, rfl, rfl⟩
  rw [probe]
  split
  case h_1 h => rwa [h] at hcapture
  case h_2 h => rwa [h] at hcapture

theorem alike_describe (name : Text) : Alike s (s.describe host around name).1 := by
  rw [describe]
  split
  case h_1 => exact .refl s
  case h_2 program _ =>
    have hhelp := s.alike_probe host around program ["--help".toList]
    dsimp only
    split
    case h_1 => exact hhelp
    case h_2 =>
      split
      case h_1 => exact hhelp
      case h_2 man _ => exact hhelp.trans (alike_probe ..)

theorem alike_helpFor (columns : Nat) (given : Text) :
    Alike s (s.helpFor host around columns given).1 := by
  have hdescribe := s.alike_describe host around (("--".toList.isPrefixOf? given).getD given)
  rw [helpFor]
  split
  case h_1 => exact .refl s
  case h_2 =>
    split
    case h_1 h => rwa [h] at hdescribe
    case h_2 h => rwa [h] at hdescribe

theorem alike_help (columns : Nat) (arguments : List Text) :
    Alike s (s.help host around columns arguments).1 := by
  rw [help]
  split
  case h_1 given _ => exact s.alike_helpFor host around columns given
  case h_2 => exact .refl s

theorem alike_runHelp (arguments : List Text) :
    Alike s (s.runHelp host around arguments).1 := by
  have hmeasure := s.alike_measure host around
  rw [runHelp]
  split
  case h_1 h => rwa [h] at hmeasure
  case h_2 s' columns h =>
    rw [h] at hmeasure
    exact hmeasure.trans (s'.alike_help host around columns arguments)

theorem alike_redirect (command : Text) (o : Outcome) (path : Path) (append : Bool) :
    Alike s (s.redirect around command o path append).1 := by
  unfold redirect
  split <;> exact ⟨rfl, rfl, rfl, rfl⟩

/-- What an invocation may do to a session besides: it may enter a directory. -/
structure Enters (home : Option Path) (s s' : Session) : Prop where
  cwd : Path.Entered home s.cwd s'.cwd
  history : s'.history = s.history
  ended : s'.ended = s.ended
  coloursOverride : s'.coloursOverride = s.coloursOverride

theorem Alike.enters {home : Option Path} {s s' : Session} (h : Alike s s') : Enters home s s' :=
  ⟨.inl h.cwd, h.history, h.ended, h.coloursOverride⟩

/-- What a command does to the session on a terminal of so many columns. -/
theorem enters_runOn (columns : Nat) (c : Command) (arguments : List Text) :
    Enters around.home? s (s.runOn around columns c arguments).1 :=
  ⟨Commands.entered_run (s.setting around columns) arguments s.workspace c, rfl, rfl, rfl⟩

theorem enters_runCommand (c : Command) (arguments : List Text) :
    Enters around.home? s (s.runCommand host around c arguments).1 := by
  have hmeasure := s.alike_measure host around
  rw [runCommand]
  split
  case isTrue =>
    split
    case h_1 h =>
      rw [h] at hmeasure
      exact hmeasure.enters
    case h_2 h =>
      rw [h] at hmeasure
      exact hmeasure.enters
  case isFalse => exact s.enters_runOn around usualColumns c arguments

theorem enters_answer (i : Line.Invocation) (d : Dispatch) :
    Enters around.home? s (s.answer host around i d).1 := by
  cases d with
  | command c => exact s.enters_runCommand host around c i.arguments
  | help => exact (s.alike_runHelp host around i.arguments).enters
  | program => exact (s.alike_runProgram host around i.name i.arguments).enters
  | history | clear | echo | notFound => exact Alike.enters ⟨rfl, rfl, rfl, rfl⟩

theorem enters_dispatch (i : Line.Invocation) :
    Enters around.home? s (s.dispatch host around i).1 :=
  s.enters_answer host around i _

/-- The message of a command goes to a file: the command is carried out without colours, and comes
to nothing itself or has its message sent. -/
theorem carryOut_redirected_cases (i : Line.Invocation) {r : Line.Redirection} {target : Text}
    (htarget : r.output = some target) :
    (∃ s' ending, (∀ o, ending ≠ .answered o) ∧
      { s with coloursOverride := some false }.dispatch host around i = (s', ending) ∧
        s.carryOut host around i r = (s', ending)) ∨
      ∃ s' o s'' o',
        { s with coloursOverride := some false }.dispatch host around i = (s', .answered o) ∧
          Alike { s' with coloursOverride := none } s'' ∧
          s.carryOut host around i r = (s'', .answered o') := by
  obtain ⟨⟨s', ending⟩, hdispatch⟩ :
      ∃ r, { s with coloursOverride := some false }.dispatch host around i = r := ⟨_, rfl⟩
  cases ending with
  | crashed why =>
    exact .inl ⟨s', .crashed why, fun _ => nofun, hdispatch,
      by simp only [carryOut, htarget, hdispatch]⟩
  | aborted bytes =>
    exact .inl ⟨s', .aborted bytes, fun _ => nofun, hdispatch,
      by simp only [carryOut, htarget, hdispatch]⟩
  | answered o =>
    have hout : ∃ path, s.carryOut host around i r =
        (({ s' with coloursOverride := none }.redirect around i.key o path r.append).1,
          .answered
            ({ s' with coloursOverride := none }.redirect around i.key o path r.append).2) :=
      ⟨_, by simp only [carryOut, htarget, hdispatch]; rfl⟩
    obtain ⟨path, hout⟩ := hout
    exact .inr ⟨s', o, _, _, hdispatch, alike_redirect _ around i.key o path r.append, hout⟩

end Session

end LineShell

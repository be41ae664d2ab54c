import LineShell.Proofs.Session.Frame
import LineShell.Proofs.Session.RoundTrip

/-! What a line may change. It ends the session or carries out one command, and a command changes
nothing but what it is there for. -/

namespace LineShell

/-- The commands that look at files and change none. -/
def Command.looks : Command → Bool
  | ls | cd | pwd | cat | grep | find | head | tail | wc => true
  | mkdir | rmdir | touch | rm | cp | mv => false

/-- What is there to look at files, or at nothing, and changes none. -/
def Dispatch.looks : Dispatch → Bool
  | command c => c.looks
  | history | clear | echo | notFound => true
  | help | program => false

theorem FileTree.changeAt_within {t t' : FileTree} {now : Time} {p : Place}
    {f : FileData → FileData} (h : t.changeAt now p f = .ok t') : t.root.Within t'.root := by
  rw [changeAt] at h
  split at h
  case h_1 => cases h
  case h_2 opened id hopen =>
    cases h
    rcases openForWriting_cases hopen with
      ⟨_, _, _, _, rfl, _⟩ | ⟨_, _, _, _, _, rfl, hnone⟩ | ⟨_, _, hfind, _, rfl, _⟩
    · exact Node.Within.refl _
    · cases hnone
    · exact newFile_within (find_holds hfind) (emptyFile now)
  case h_3 opened hopen =>
    cases h
    rcases openForWriting_cases hopen with
      ⟨_, _, _, _, rfl, _⟩ | ⟨_, _, _, _, _, rfl, _⟩ | ⟨_, _, _, _, rfl, hsome⟩
    · exact Node.Within.refl _
    · exact Node.Within.refl _
    · cases hsome

namespace Commands

theorem isDir_of_enter {s : Setting} {w : Workspace} {typed : Text} {target : Path}
    (h : enter s w typed = .ok target) : w.tree.isDir target = true := by
  simp only [enter] at h
  split at h
  case h_1 => cases h
  case h_2 p _ =>
    split at h
    case isTrue => cases h
    case isFalse =>
      split at h
      case isTrue => cases h
      case isFalse hdir =>
        cases h
        simpa using hdir

/-- Only `cd` leaves the directory. -/
theorem cwd_run {c : Command} (hc : c ≠ .cd) (s : Setting) (arguments : List Text)
    (w : Workspace) : (run s c arguments w).1.cwd = w.cwd := by
  cases c with
  | cd => exact absurd rfl hc
  | ls | pwd | cat | grep | find | head | tail | wc => rfl
  | mkdir => exact cwd_mkdir s arguments w
  | rmdir => exact cwd_rmdir s arguments w
  | touch => exact cwd_touch s arguments w
  | rm => exact cwd_rm s arguments w
  | cp => exact cwd_cp s arguments w
  | mv => exact cwd_mv s arguments w

theorem tree_run {c : Command} (hc : c.looks = true) (s : Setting) (arguments : List Text)
    (w : Workspace) : (run s c arguments w).1.tree = w.tree := by
  cases c with
  | cd =>
    change (cd s arguments w).1.tree = w.tree
    rw [cd]
    split <;> rfl
  | ls | pwd | cat | grep | find | head | tail | wc => rfl
  | mkdir | rmdir | touch | rm | cp | mv => cases hc

end Commands

namespace Session

open Program

variable (host : Host) (s : Session) (around : Surroundings)

/-- The directory that `cd` with the arguments of an invocation leads to. -/
def entering (i : Line.Invocation) : Except Failure Path :=
  Commands.enter (s.setting around usualColumns) s.workspace (i.arguments.head?.getD [])

theorem alike_runOn {c : Command} (hc : c ≠ .cd) (columns : Nat) (arguments : List Text) :
    Alike s (s.runOn around columns c arguments).1 :=
  ⟨Commands.cwd_run hc (s.setting around columns) arguments s.workspace, rfl, rfl, rfl⟩

theorem alike_runCommand {c : Command} (hc : c ≠ .cd) (arguments : List Text) :
    Alike s (s.runCommand host around c arguments).1 := by
  have hmeasure := s.alike_measure host around
  rw [runCommand]
  split
  case isTrue =>
    split
    case h_1 h =>
      rw [h] at hmeasure
      exact hmeasure
    case h_2 h =>
      rw [h] at hmeasure
      exact hmeasure
  case isFalse => exact s.alike_runOn around hc usualColumns arguments

theorem alike_dispatch {i : Line.Invocation} (hi : Dispatch.ofKey i.key ≠ .command .cd) :
    Alike s (s.dispatch host around i).1 := by
  rw [dispatch]
  cases hkey : Dispatch.ofKey i.key with
  | command c =>
    refine s.alike_runCommand host around ?_ i.arguments
    rintro rfl
    exact hi hkey
  | help => exact s.alike_runHelp host around i.arguments
  | program => exact s.alike_runProgram host around i.name i.arguments
  | history | clear | echo | notFound => exact ⟨rfl, rfl, rfl, rfl⟩

/-- `cd` enters the directory, or leaves everything as it was. -/
theorem dispatch_cd {i : Line.Invocation} (hi : Dispatch.ofKey i.key = .command .cd) :
    s.dispatch host around i =
      match s.entering around i with
      | .ok target => ({ s with cwd := target }, .answered (.success ("Changed to " ++ target)))
      | .error f => (s, .answered (Answer.outcome (.error f))) := by
  have hrun : s.answer host around i (.command .cd) =
      s.runOn around usualColumns .cd i.arguments := rfl
  rw [dispatch, hi, hrun, entering]
  dsimp only [runOn, Commands.run, Commands.changing, Commands.cd]
  cases Commands.enter (s.setting around usualColumns) s.workspace (i.arguments.head?.getD []) with
  | ok target => rfl
  | error f => rfl

/-- A command that only looks changes no file; a listing may leave what the program has done that
was asked for the columns. -/
theorem tree_runCommand {c : Command} (hc : c.looks = true) (arguments : List Text) :
    (s.runCommand host around c arguments).1.tree =
      if s.needsColumns around c arguments then (s.measure host around).1.tree else s.tree := by
  rw [runCommand]
  split
  case isTrue =>
    split
    case h_1 h => rw [h]
    case h_2 h => rw [h]
  case isFalse => exact Commands.tree_run hc (s.setting around usualColumns) arguments s.workspace

theorem measure_of_columns {n : Nat} (h : around.columns = some n) :
    s.measure host around = (s, .ok n) := by
  rw [measure, h]

theorem redirect_within (command : Text) (o : Outcome) (path : Path) (append : Bool) :
    s.tree.root.Within (s.redirect around command o path append).1.tree.root := by
  unfold redirect
  split
  case h_1 => exact Node.Within.refl _
  case h_2 h =>
    rw [writeMessage] at h
    split at h
    case isTrue => exact FileTree.changeAt_within h
    case isFalse => exact FileTree.changeAt_within h

/-- Sessions that differ in no more than what a file for a message has: colours are used again, and
the files may hold more. -/
structure Writes (s s' : Session) : Prop where
  cwd : s'.cwd = s.cwd
  history : s'.history = s.history
  ended : s'.ended = s.ended
  tree : s.tree.root.Within s'.tree.root

theorem Writes.refl (s : Session) : Writes s s :=
  ⟨rfl, rfl, rfl, Node.Within.refl _⟩

/-- A line does what its command does, and may send the message to a file after that. -/
theorem carryOut_writes (i : Line.Invocation) (r : Line.Redirection) :
    ∃ colours, Writes ({ s with coloursOverride := colours }.dispatch host around i).1
      (s.carryOut host around i r).1 := by
  cases htarget : r.output with
  | none =>
    refine ⟨s.coloursOverride, ?_⟩
    rw [carryOut, htarget]
    exact .refl _
  | some target =>
    refine ⟨some false, ?_⟩
    obtain ⟨⟨s', ending⟩, hdispatch⟩ :
        ∃ d, { s with coloursOverride := some false }.dispatch host around i = d := ⟨_, rfl⟩
    rw [hdispatch]
    cases ending with
    | crashed why =>
      have hcarry : s.carryOut host around i r = (s', .crashed why) := by
        simp only [carryOut, htarget, hdispatch]
      rw [hcarry]
      exact .refl _
    | aborted bytes =>
      have hcarry : s.carryOut host around i r = (s', .aborted bytes) := by
        simp only [carryOut, htarget, hdispatch]
      rw [hcarry]
      exact .refl _
    | answered o =>
      obtain ⟨path, hcarry⟩ : ∃ path, (s.carryOut host around i r).1 =
          ({ s' with coloursOverride := none }.redirect around i.key o path r.append).1 :=
        ⟨_, by simp only [carryOut, htarget, hdispatch]; rfl⟩
      have halike := alike_redirect { s' with coloursOverride := none } around i.key o path r.append
      rw [hcarry]
      exact ⟨halike.cwd, halike.history, halike.ended,
        redirect_within { s' with coloursOverride := none } around i.key o path r.append⟩

section CarryOut

variable {i : Line.Invocation} (r : Line.Redirection)

theorem history_carryOut : (s.carryOut host around i r).1.history = s.history := by
  obtain ⟨colours, hwrites⟩ := s.carryOut_writes host around i r
  have henters := { s with coloursOverride := colours }.enters_dispatch host around i
  exact hwrites.history.trans henters.history

theorem ended_carryOut : (s.carryOut host around i r).1.ended = s.ended := by
  obtain ⟨colours, hwrites⟩ := s.carryOut_writes host around i r
  have henters := { s with coloursOverride := colours }.enters_dispatch host around i
  exact hwrites.ended.trans henters.ended

theorem cwd_carryOut (hi : Dispatch.ofKey i.key ≠ .command .cd) :
    (s.carryOut host around i r).1.cwd = s.cwd := by
  obtain ⟨colours, hwrites⟩ := s.carryOut_writes host around i r
  have halike := { s with coloursOverride := colours }.alike_dispatch host around hi
  exact hwrites.cwd.trans halike.cwd

/-- Where `cd` leads is a directory still when the line is done. -/
theorem carryOut_entering (hi : Dispatch.ofKey i.key = .command .cd) {target : Path}
    (htarget : s.entering around i = .ok target) :
    (s.carryOut host around i r).1.cwd = target ∧
      (s.carryOut host around i r).1.tree.isDir target = true := by
  obtain ⟨colours, hwrites⟩ := s.carryOut_writes host around i r
  have hdispatch := { s with coloursOverride := colours }.dispatch_cd host around hi
  have hentering : { s with coloursOverride := colours }.entering around i = .ok target := htarget
  rw [hentering] at hdispatch
  rw [hdispatch] at hwrites
  exact ⟨hwrites.cwd, FileTree.isDir_grown hwrites.tree (Commands.isDir_of_enter htarget)⟩

theorem carryOut_refused (hi : Dispatch.ofKey i.key = .command .cd) {f : Failure}
    (hf : s.entering around i = .error f) : (s.carryOut host around i r).1.cwd = s.cwd := by
  obtain ⟨colours, hwrites⟩ := s.carryOut_writes host around i r
  have hdispatch := { s with coloursOverride := colours }.dispatch_cd host around hi
  have hentering : { s with coloursOverride := colours }.entering around i = .error f := hf
  rw [hentering] at hdispatch
  rw [hdispatch] at hwrites
  exact hwrites.cwd

end CarryOut

/-- What a line changes. -/
structure Touches (line : Text) : Prop where
  /-- `exit` or `quit` alone on a line, in whatever case, ends the session and does nothing else. -/
  ends : Text.lower (Text.trim line) = "exit".toList ∨
      Text.lower (Text.trim line) = "quit".toList →
    s.execute host around line = ({ s with ended := true }, .answered (.success []))
  /-- No other line ends the session, or takes the end back. -/
  stays : ¬(Text.lower (Text.trim line) = "exit".toList ∨
      Text.lower (Text.trim line) = "quit".toList) →
    (s.execute host around line).1.ended = s.ended
  /-- The directory is left only for another one that `cd` leads to, and that is there. -/
  leaves : (s.execute host around line).1.cwd ≠ s.cwd →
    ∃ i r target, Line.parse line = .ok (i, r) ∧ i.key = Command.cd.name ∧
      s.entering around i = .ok target ∧ (s.execute host around line).1.cwd = target ∧
      (s.execute host around line).1.tree.isDir target = true
  /-- `cd` that succeeds enters the directory. -/
  enters : ∀ i r target, isExit line = false → Line.parse line = .ok (i, r) →
    i.key = Command.cd.name → s.entering around i = .ok target →
    (s.execute host around line).1.cwd = target ∧
      (s.execute host around line).1.tree.isDir target = true
  /-- `cd` that fails stays. -/
  refused : ∀ i r f, Line.parse line = .ok (i, r) → i.key = Command.cd.name →
    s.entering around i = .error f → (s.execute host around line).1.cwd = s.cwd
  /-- What was typed is remembered apart from carrying it out, once for each line. -/
  history : (s.execute host around line).1.history = s.history
  submits : (s.submit host around line).1.history = s.history.add line
  /-- A line that does not parse changes no file, whatever programs there are to be started. -/
  unparsed : ∀ e, Line.parse line = .error e → ∀ host',
    s.execute host' around line =
      if isExit line then ({ s with ended := true }, .answered (.success []))
      else (s, .answered e.outcome)
  /-- A command that only looks, with its message sent to no file, changes no file. There may be
  what a program has done that a listing in columns asks for the columns. -/
  looks : ∀ i r d, Line.parse line = .ok (i, r) → r.output = none →
    Dispatch.ofKey i.key = d → d.looks = true →
    (s.execute host around line).1.tree = s.tree ∨
      d = .command .ls ∧ s.needsColumns around .ls i.arguments = true ∧
        around.columns = none ∧
        (s.execute host around line).1.tree = (s.measure host around).1.tree

section Execute

variable {line : Text}

theorem execute_of_isExit (h : isExit line = true) :
    s.execute host around line = ({ s with ended := true }, .answered (.success [])) := by
  rw [execute, if_pos h]

theorem execute_of_parse_eq {i : Line.Invocation} {r : Line.Redirection}
    (h : isExit line = false) (hparse : Line.parse line = .ok (i, r)) :
    s.execute host around line = s.carryOut host around i r := by
  rw [execute, h, hparse]
  rfl

/-- A line ends the session, does not parse, or is carried out. -/
theorem execute_cases (line : Text) :
    (isExit line = true ∧
      s.execute host around line = ({ s with ended := true }, .answered (.success []))) ∨
    (∃ e, isExit line = false ∧ Line.parse line = .error e ∧
      s.execute host around line = (s, .answered e.outcome)) ∨
    ∃ i r, isExit line = false ∧ Line.parse line = .ok (i, r) ∧
      s.execute host around line = s.carryOut host around i r := by
  cases hexit : isExit line with
  | true => exact .inl ⟨rfl, s.execute_of_isExit host around hexit⟩
  | false =>
    cases hparse : Line.parse line with
    | error e => exact .inr (.inl ⟨e, rfl, rfl, by rw [execute, hexit, hparse]; rfl⟩)
    | ok p => exact .inr (.inr ⟨p.1, p.2, rfl, rfl, s.execute_of_parse_eq host around hexit hparse⟩)

end Execute

theorem history_execute (line : Text) :
    (s.execute host around line).1.history = s.history := by
  rcases s.execute_cases host around line with ⟨-, h⟩ | ⟨_, -, -, h⟩ | ⟨i, r, -, -, h⟩
  · rw [h]
  · rw [h]
  · rw [h]
    exact s.history_carryOut host around r

/-- A line touches no more than it may, in whatever session it is carried out. -/
theorem execute_touches (line : Text) : Touches host s around line where
  ends h := s.execute_of_isExit host around ((isExit_iff line).mpr h)
  stays h := by
    rcases s.execute_cases host around line with ⟨hexit, -⟩ | ⟨_, -, -, h⟩ | ⟨i, r, -, -, h⟩
    · exact absurd ((isExit_iff line).mp hexit) h
    · rw [h]
    · rw [h]
      exact s.ended_carryOut host around r
  leaves h := by
    rcases s.execute_cases host around line with ⟨-, h'⟩ | ⟨_, -, -, h'⟩ | ⟨i, r, -, hparse, h'⟩
    · exact absurd (by rw [h']) h
    · exact absurd (by rw [h']) h
    · rw [h'] at h ⊢
      by_cases hcd : Dispatch.ofKey i.key = .command .cd
      · cases hentering : s.entering around i with
        | error f => exact absurd (s.carryOut_refused host around r hcd hentering) h
        | ok target =>
          obtain ⟨hcwd, hdir⟩ := s.carryOut_entering host around r hcd hentering
          exact ⟨i, r, target, hparse, (Line.Invocation.ofKey_eq_command_iff (by decide)).mp hcd,
            hentering, hcwd, hdir⟩
      · exact absurd (s.cwd_carryOut host around r hcd) h
  enters i r target hexit hparse hkey htarget := by
    rw [s.execute_of_parse_eq host around hexit hparse]
    exact s.carryOut_entering host around r
      ((Line.Invocation.ofKey_eq_command_iff (by decide)).mpr hkey) htarget
  refused i r f hparse hkey hf := by
    rcases s.execute_cases host around line with ⟨-, h⟩ | ⟨_, -, -, h⟩ | ⟨i', r', -, hparse', h⟩
    · rw [h]
    · rw [h]
    · obtain ⟨rfl, rfl⟩ := Prod.mk.inj (Except.ok.inj (hparse'.symm.trans hparse))
      rw [h]
      exact s.carryOut_refused host around r'
        ((Line.Invocation.ofKey_eq_command_iff (by decide)).mpr hkey) hf
  history := s.history_execute host around line
  submits := { s with history := s.history.add line }.history_execute host around line
  unparsed e hparse host' := by
    rw [execute, hparse]
  looks i r d hparse hout hkey hlooks := by
    rcases s.execute_cases host around line with ⟨-, h⟩ | ⟨_, -, -, h⟩ | ⟨i', r', -, hparse', h⟩
    · exact .inl (by rw [h])
    · exact .inl (by rw [h])
    · obtain ⟨rfl, rfl⟩ := Prod.mk.inj (Except.ok.inj (hparse'.symm.trans hparse))
      rw [h, carryOut, hout]
      dsimp only
      rw [s.dispatch_eq host around hkey]
      cases d with
      | command c =>
        have htree := s.tree_runCommand host around hlooks i'.arguments
        rw [answer, htree]
        split
        case isTrue hneeds =>
          cases hcolumns : around.columns with
          | some n => exact .inl (by rw [s.measure_of_columns host around hcolumns])
          | none =>
            cases c with
            | ls => exact .inr ⟨rfl, hneeds, rfl, rfl⟩
            | _ => cases hneeds
        case isFalse => exact .inl rfl
      | history | clear | echo | notFound => exact .inl rfl
      | help | program => cases hlooks

/-- A system in which every program takes the permissions of the file `f` from all but its owner. -/
def closesFile : Host := fun _ _ =>
  .ok {
    tree := .single 0o600
    status := .exited 0
    out := []
    err := []
    watched := default
    taken := 0
    interrupt := false }

theorem list_withOneFile : ((withOneFile 0o644).tree.list
    ((withOneFile 0o644).resolve bareSurroundings [])).toOption.isSome = true := by
  have hroot : (withOneFile 0o644).tree.node true
      ((withOneFile 0o644).resolve bareSurroundings []) = .ok (withOneFile 0o644).tree.root := by
    refine (FileTree.node_eq_ok_iff _ _ _ _).mpr ⟨[], (FileTree.find_eq_ok_iff _ _ _ _).mpr ?_⟩
    exact ⟨by decide, .root ⟨_, rfl, rfl, by decide⟩ (.arrived rfl)⟩
  rw [FileTree.list, hroot]
  rfl

/-- A listing in columns leaves what the program has done that it asks for the columns. -/
theorem execute_touches_measuring :
    Line.parse "ls" = .ok ({ name := "ls".toList, arguments := [] }, {}) ∧
      (Dispatch.ofKey "ls").looks = true ∧
      ((withOneFile 0o644).execute closesFile bareSurroundings "ls").1.tree ≠
        (withOneFile 0o644).tree := by
  have hparse : Line.parse "ls" = .ok ({ name := "ls".toList, arguments := [] }, {}) := by
    decide
  refine ⟨hparse, by decide +kernel, fun heq => ?_⟩
  have hneeds : (withOneFile 0o644).needsColumns bareSurroundings .ls [] = true :=
    list_withOneFile
  have htree := (withOneFile 0o644).tree_runCommand closesFile bareSurroundings (c := .ls) rfl []
  have hrun := execute_of_parse closesFile (withOneFile 0o644) bareSurroundings (by decide) hparse
    (Dispatch.ofKey_lower_name .ls)
  rw [answer] at hrun
  rw [hneeds, if_pos rfl, ← hrun, heq] at htree
  exact absurd (congrArg FileTree.files htree) (by decide)

end Session

end LineShell

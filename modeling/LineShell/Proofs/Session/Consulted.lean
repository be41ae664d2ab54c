import LineShell.Proofs.Session.Frame
import LineShell.Proofs.Session.Starts

/-! Which program help on a name asks, and which program the name runs. Both look the name up as it
is typed; a run looks it up in lowercase besides. -/

namespace LineShell

namespace Session

open Program

variable {s : Session} {around : Surroundings} {columns : Nat} {given name : Text} {program : Path}

/-- The name that help is asked about: two dashes in front of it are no part of it. -/
def subject (given : Text) : Text :=
  ("--".toList.isPrefixOf? given).getD given

/-- How a program is started that has to answer apart from the terminal. -/
def probing (s : Session) (around : Surroundings) (program : Path) (arguments : List Text) :
    Launch :=
  { s.launch around program arguments (some probeLimit) with input := [] }

theorem probe_eq {host host' : Host} {arguments : List Text}
    (h : host s.tree (s.probing around program arguments) =
      host' s.tree (s.probing around program arguments)) :
    s.probe host around program arguments = s.probe host' around program arguments := by
  rw [probing] at h
  rw [probe, probe, capture, capture, h]

theorem probe_of_exited {host : Host} {arguments : List Text} {report : Report} {status : Status}
    {output : Text} (h : host s.tree (s.probing around program arguments) = .ok report)
    (hrun : report.watched.run = .ok (.exited status output)) :
    (s.probe host around program arguments).2 =
      if status.succeeded then some output else none := by
  rw [probing] at h
  rw [probe, capture, h]
  dsimp only
  rw [hrun]

/-- The question for a program's own help. -/
def question : List Text :=
  ["--help".toList]

/-- The question to the manual about a name. -/
def manualOn (name : Text) : List Text :=
  ["-f".toList, name]

/-- A program that has to answer apart from the terminal is told of the session no more than the
directory. -/
theorem probing_eq {s' : Session} (h : s'.cwd = s.cwd) (program : Path) (arguments : List Text) :
    s'.probing around program arguments = s.probing around program arguments := by
  rw [probing, launch, h]
  rfl

/-- Besides the program that is asked for its help, only the manual is asked, and about the name. -/
theorem describe_eq {host host' : Host}
    (hhelp : ∀ p, locate s.tree around.environment s.cwd name = some p →
      host s.tree (s.probing around p question) = host' s.tree (s.probing around p question))
    (hmanual : ∀ t p, locate t around.environment s.cwd "man" = some p →
      host t (s.probing around p (manualOn name)) = host' t (s.probing around p (manualOn name))) :
    s.describe host around name = s.describe host' around name := by
  rw [describe, describe]
  cases hlocate : locate s.tree around.environment s.cwd name with
  | none => rfl
  | some p =>
    have hprobe := probe_eq (hhelp p hlocate)
    have hcwd := (s.alike_probe host' around p question).cwd
    rw [question] at hprobe hcwd
    dsimp only
    rw [hprobe]
    generalize s.probe host' around p ["--help".toList] = answer at hcwd
    obtain ⟨s', help⟩ := answer
    dsimp only at hcwd ⊢
    cases help.bind Help.descriptionLine? with
    | some line => rfl
    | none =>
      cases hmanual' : locate s'.tree around.environment s'.cwd "man" with
      | none => rfl
      | some manual =>
        rw [hcwd] at hmanual'
        have hpage : s'.probe host around manual (manualOn name) =
            s'.probe host' around manual (manualOn name) := by
          apply probe_eq
          rw [probing_eq hcwd]
          exact hmanual _ _ hmanual'
        rw [manualOn] at hpage
        dsimp only
        rw [hpage]

/-- The page for a name that is not reserved. -/
def described (s : Session) (around : Surroundings) (columns : Nat) (name : Text) :
    Option Text → Outcome
  | some description =>
    .success (Help.programPage (s.colours around) (Help.pageWidth columns) name description)
  | none => .failure (Help.unknownPage (s.colours around) (Help.pageWidth columns) name)

theorem helpFor_free (hfree : Registry.reserves (subject given) = false) (host : Host) :
    s.helpFor host around columns given = ((s.describe host around (subject given)).1,
      s.described around columns (subject given) (s.describe host around (subject given)).2) := by
  have hentry := (Help.entry?_eq_none_iff _).mpr hfree
  rw [subject] at hentry ⊢
  rw [helpFor, hentry]
  dsimp only
  split
  case h_1 h => rw [h, described]
  case h_2 h => rw [h, described]

/-- Help on a name asks a program to describe itself. -/
def Consults (s : Session) (around : Surroundings) (columns : Nat) (given : Text)
    (program : Path) : Prop :=
  ∃ t l, Starts (fun host => s.helpFor host around columns given) t l ∧ l.program = program ∧
    l.arguments = question

/-- A name with some arguments runs a program. -/
def Runs (s : Session) (around : Surroundings) (i : Line.Invocation) (program : Path) : Prop :=
  ∃ t l, Starts (fun host => s.dispatch host around i) t l ∧ l.program = program

/-- A program that is asked about itself writes a line that describes it. -/
def Describes (host : Host) (s : Session) (around : Surroundings) (program : Path)
    (description : Text) : Prop :=
  (s.probe host around program question).2.bind Help.descriptionLine? = some description

theorem describe_of_describes {host : Host} {description : Text}
    (hlocate : locate s.tree around.environment s.cwd name = some program)
    (h : Describes host s around program description) :
    (s.describe host around name).2 = some description := by
  rw [Describes, question] at h
  rw [describe, hlocate]
  dsimp only
  rw [h]

/-- A program that can be asked about itself: it writes one letter and exits. -/
def telling (t : FileTree) : Report :=
  { tree := t, status := .exited 0, out := [], err := [],
    watched := ⟨[.exits (.exited 0), .delivers .out ['x'], .delivers .err []], rfl⟩,
    taken := 0, interrupt := false }

theorem describes_of_telling {host : Host}
    (h : host s.tree (s.probing around program question) = .ok (telling s.tree)) :
    Describes host s around program ['x'] := by
  have hrun : (telling s.tree).watched.run = .ok (.exited (.exited 0) ['x']) := rfl
  rw [Describes, probe_of_exited h hrun]
  decide

theorem probe_refusing (e : IoError) (program : Path) (arguments : List Text) :
    s.probe (refusing e) around program arguments = (s, none) :=
  rfl

theorem describe_refusing (e : IoError) :
    (s.describe (refusing e) around name).2 = none := by
  rw [describe]
  cases locate s.tree around.environment s.cwd name with
  | none => rfl
  | some p =>
    simp only [probe_refusing, Option.bind_none]
    cases locate s.tree around.environment s.cwd "man" with
    | none => rfl
    | some manual => rfl

/-- Help asks the program that the name leads to as it is typed. -/
theorem consults_iff (hfree : Registry.reserves (subject given) = false) :
    s.Consults around columns given program ↔
      locate s.tree around.environment s.cwd (subject given) = some program := by
  constructor
  · rintro ⟨t, l, ⟨host, host', hagree, hne⟩, rfl, hquestion⟩
    by_contra hlocate
    have hdescribe : s.describe host around (subject given) =
        s.describe host' around (subject given) :=
      describe_eq (fun p hp => hagree _ _ fun h => hlocate (h.2 ▸ hp))
        fun t' p _ => hagree _ _ fun h => by
          rw [← h.2] at hquestion
          cases hquestion
    dsimp only at hne
    rw [helpFor_free hfree, helpFor_free hfree, hdescribe] at hne
    exact hne rfl
  · intro hlocate
    refine ⟨s.tree, s.probing around program question, ?_, rfl, rfl⟩
    have hrefused : (s.describe (refusing .notRegular) around (subject given)).2 = none :=
      describe_refusing _
    have htold := describe_of_describes hlocate <| describes_of_telling
      ((refusing .notRegular).answering_self s.tree (s.probing around program question)
        (.ok (telling s.tree)))
    refine @starts_of_answering _ _ _ _ (refusing .notRegular) (.ok (telling s.tree)) ?_
    rw [helpFor_free hfree, helpFor_free hfree, hrefused, htold]
    intro heq
    cases congrArg Prod.snd heq

/-- A run starts the program that the name leads to as it is typed, else in lowercase. -/
theorem runs_iff {i : Line.Invocation} (hfree : Registry.reserves i.name = false) :
    s.Runs around i program ↔ s.programFor around i.name = some program := by
  have hfree : Dispatch.ofKey i.key = .program := Line.Invocation.ofKey_eq_program_iff.mpr hfree
  constructor
  · rintro ⟨t, l, hstarts, rfl⟩
    cases hprogram : s.programFor around i.name with
    | none => exact absurd hstarts (not_starts_dispatch hfree hprogram)
    | some p =>
      rw [starts_dispatch_iff hfree hprogram] at hstarts
      rw [hstarts.2]
      rfl
  · intro hprogram
    exact ⟨_, _, (starts_dispatch_iff hfree hprogram).mpr ⟨rfl, rfl⟩, rfl⟩

/-- Help on a name that is not reserved asks just the program that the name runs, unless the name is
found in lowercase only. There is no program for help to ask then, and however well the program
describes itself, the name is said not to be found. -/
theorem consults_runs_iff (hfree : Registry.reserves (subject given) = false) :
    (∀ arguments, (∀ program, s.Consults around columns given program ↔
        s.Runs around { name := subject given, arguments } program) ↔
      (locate s.tree around.environment s.cwd (subject given) = none →
        locateFolded s.tree around.environment s.cwd (subject given) = none)) ∧
    ∀ host program description, s.programFor around (subject given) = some program →
      Describes host s around program description →
      (s.helpFor host around columns given).2 =
        if (locate s.tree around.environment s.cwd (subject given)).isSome then
          .success (Help.programPage (s.colours around) (Help.pageWidth columns) (subject given)
            description)
        else
          .failure (Help.unknownPage (s.colours around) (Help.pageWidth columns)
            (subject given)) := by
  constructor
  · intro arguments
    have hruns (p : Path) : s.Runs around { name := subject given, arguments } p ↔
        s.programFor around (subject given) = some p := runs_iff hfree
    simp only [consults_iff hfree, hruns, programFor]
    cases locate s.tree around.environment s.cwd (subject given) with
    | some p => simp
    | none =>
      simp only [Option.none_or, true_imp_iff, Option.eq_none_iff_forall_ne_some]
      refine forall_congr' fun p => ?_
      exact ⟨fun h hp => (nomatch h.mpr hp), fun h => ⟨nofun, fun hp => absurd hp h⟩⟩
  · intro host p description hprogram hdescribes
    rw [helpFor_free hfree]
    cases hlocate : locate s.tree around.environment s.cwd (subject given) with
    | some q =>
      rw [programFor, hlocate, Option.some_or] at hprogram
      rw [describe_of_describes (hlocate.trans hprogram) hdescribes]
      rfl
    | none =>
      rw [describe, hlocate]
      rfl

/-- A system on which each program writes one letter and exits. -/
def allTelling : Host :=
  fun t _ => .ok (telling t)

theorem consults_runs_asTyped :
    Registry.reserves (subject "--tool") = false ∧
      (∀ arguments program, (withProgram "tool").Consults searchingRoot 80 "--tool" program ↔
        (withProgram "tool").Runs searchingRoot { name := "tool".toList, arguments } program) ∧
      (withProgram "tool").programFor searchingRoot "tool" = some "/tool".toList ∧
      Describes allTelling (withProgram "tool") searchingRoot "/tool".toList ['x'] ∧
      ((withProgram "tool").helpFor allTelling searchingRoot 80 "--tool").2 =
        .success (Help.programPage false 80 "tool" ['x']) := by
  have hfree : Registry.reserves (subject "--tool") = false := by decide
  have hlocate : locate (withProgram "tool").tree searchingRoot.environment
      (withProgram "tool").cwd (subject "--tool") = some "/tool".toList :=
    locate_withProgram (by decide) (by decide)
  have hprogram : (withProgram "tool").programFor searchingRoot (subject "--tool") =
      some "/tool".toList := by
    rw [programFor, hlocate, Option.some_or]
  have hdescribes : Describes allTelling (withProgram "tool") searchingRoot "/tool".toList ['x'] :=
    describes_of_telling rfl
  obtain ⟨hruns, hpage⟩ := @consults_runs_iff (withProgram "tool") searchingRoot 80 _ hfree
  refine ⟨hfree, fun arguments => (hruns arguments).mpr fun h => ?_, hprogram, hdescribes, ?_⟩
  · rw [hlocate] at h
    cases h
  · rw [hpage _ _ _ hprogram hdescribes, hlocate]
    rfl

/-- A name in capitals whose program is spelled in lowercase. -/
theorem consults_runs_folded :
    Registry.reserves (subject "TOOL") = false ∧
      (withProgram "tool").Runs searchingRoot { name := "TOOL".toList, arguments := [] } "/tool" ∧
      ¬(withProgram "tool").Consults searchingRoot 80 "TOOL" "/tool" ∧
      Describes allTelling (withProgram "tool") searchingRoot "/tool".toList ['x'] ∧
      ((withProgram "tool").helpFor allTelling searchingRoot 80 "TOOL").2 =
        .failure (Help.unknownPage false 80 "TOOL") := by
  have hfree : Registry.reserves (subject "TOOL") = false := by decide
  have hlocate : locate (withProgram "tool").tree searchingRoot.environment
      (withProgram "tool").cwd (subject "TOOL") = none :=
    locate_withProgram (by decide) (by decide)
  have hfolded : locateFolded (withProgram "tool").tree searchingRoot.environment
      (withProgram "tool").cwd (subject "TOOL") = some "/tool".toList :=
    locateFolded_withProgram (by decide) (by decide) (by decide) (by decide)
  have hprogram : (withProgram "tool").programFor searchingRoot "TOOL" = some "/tool".toList := by
    change (locate _ _ _ (subject "TOOL")).or (locateFolded _ _ _ (subject "TOOL")) = _
    rw [hlocate, hfolded, Option.none_or]
  refine ⟨hfree, (runs_iff hfree).mpr hprogram, fun hconsults => ?_, describes_of_telling rfl, ?_⟩
  · rw [consults_iff hfree, hlocate] at hconsults
    cases hconsults
  · rw [helpFor_free hfree, describe, hlocate]
    rfl

end Session

end LineShell

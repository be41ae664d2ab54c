import LineShell.Proofs.Layout
import LineShell.Proofs.Listing
import LineShell.Proofs.Session.Columns
import LineShell.Proofs.Session.Frame
import LineShell.Proofs.Session.RoundTrip

/-! Which lines come to no outcome. A line crashes for three reasons only: a count of lines that is
too large, details that cannot be told, or a number of columns that cannot be counted. -/

namespace LineShell

namespace Commands

variable (s : Setting) (arguments : List Text) (w : Workspace)

/-- More lines of a file are asked for than room can be asked for. -/
def AsksTooMuch (home : Option Path) : Prop :=
  ∃ n file, excerptOf .tail arguments = .ok (n, file) ∧
    w.tree.isFile (Path.resolve home w.cwd file) = true ∧ mostLines < n

/-- Room for lines of a file is asked for, and not granted. -/
def Overdraws (home : Option Path) (memory : Nat → Bool) : Prop :=
  ∃ n file, excerptOf .tail arguments = .ok (n, file) ∧
    w.tree.isFile (Path.resolve home w.cwd file) = true ∧ n ≤ mostLines ∧
    memory (roomFor n) = false

theorem exists_existingFile_eq_ok_iff (c : Command) (typed : Text) :
    (∃ p, existingFile s w c typed = .ok p) ↔ w.tree.isFile (w.resolve s typed) = true := by
  rw [existingFile]
  split
  case isTrue h =>
    refine iff_of_false (by rintro ⟨_, ⟨⟩⟩) fun hfile => ?_
    simp [FileTree.isThere_of_isFile hfile] at h
  case isFalse =>
    split
    case isTrue h => exact iff_of_false (by rintro ⟨_, ⟨⟩⟩) (by simpa using h)
    case isFalse h => exact iff_of_true ⟨_, rfl⟩ (by simpa using h)

theorem tail_eq_crashed (h : AsksTooMuch arguments w s.home) :
    tail s arguments w = .crashed .capacity := by
  obtain ⟨n, file, hargs, hfile, hmany⟩ := h
  obtain ⟨p, hp⟩ := (exists_existingFile_eq_ok_iff s w .tail file).mpr hfile
  simp only [tail, hargs, hp, hmany, if_true]

/-- A number of lines is too large, or not granted, or shown. -/
theorem endsAs_tail :
    (tail s arguments w).EndsAs (AsksTooMuch arguments w s.home)
      (Overdraws arguments w s.home s.memory) := by
  have hopens (typed : Text) := exists_existingFile_eq_ok_iff s w .tail typed
  simp only [AsksTooMuch, Overdraws]
  rw [tail]
  cases hargs : excerptOf .tail arguments with
  | error f => exact .answered (by rintro ⟨_, _, ⟨⟩, -⟩) (by rintro ⟨_, _, ⟨⟩, -⟩)
  | ok r =>
    obtain ⟨n, file⟩ := r
    dsimp only
    cases hopen : existingFile s w .tail file with
    | error f =>
      have hnone : ¬w.tree.isFile (Path.resolve s.home w.cwd file) = true := fun hfile => by
        obtain ⟨p, hp⟩ := (hopens file).mpr hfile
        rw [hopen] at hp
        cases hp
      refine .answered ?_ ?_ <;> rintro ⟨_, _, ⟨⟩, hfile, -⟩ <;> exact hnone hfile
    | ok p =>
      have hfile := (hopens file).mp ⟨p, hopen⟩
      dsimp only
      split_ifs with hmany hgranted
      · refine .crashed ⟨n, file, rfl, hfile, hmany⟩ ?_
        rintro ⟨_, _, ⟨⟩, -, hfew, -⟩
        exact Nat.not_lt.mpr hfew hmany
      · refine .answered ?_ ?_
        · rintro ⟨_, _, ⟨⟩, -, hmany'⟩
          exact hmany hmany'
        · rintro ⟨_, _, ⟨⟩, -, -, hrefused⟩
          rw [hgranted] at hrefused
          cases hrefused
      · refine .aborted ?_ ⟨n, file, rfl, hfile, Nat.not_lt.mp hmany,
          Bool.eq_false_iff.mpr hgranted⟩
        rintro ⟨_, _, ⟨⟩, -, hmany'⟩
        exact hmany hmany'

/-- A listing comes to an answer, unless it has details that cannot be told. -/
theorem exists_ls_eq_ok_iff {options : Listing.Options} {target : Option Text}
    (hparse : Listing.Options.parse arguments = (options, target)) :
    (∃ a, ls s arguments w = .ok a) ↔
      ∀ entries, w.tree.list (w.resolve s (target.getD [])) = .ok entries → options.long = true →
        Listing.Tellable w.tree
          (Listing.detailed options w.tree (w.resolve s (target.getD [])) entries) := by
  rw [ls, hparse]
  dsimp only
  rw [listing, Listing.render]
  dsimp only
  cases w.tree.list (w.resolve s (target.getD [])) with
  | error e => exact iff_of_true ⟨_, rfl⟩ (by rintro _ ⟨⟩)
  | ok entries =>
    simp only [Except.ok.injEq, forall_eq', Except.exists_map_eq_ok_iff]
    split
    case isTrue hlong => rw [Listing.exists_withDetails_eq_ok_iff, forall_prop_of_true hlong]
    case isFalse hshort =>
      exact iff_of_true (Listing.exists_inColumns_eq_ok _ _ _) fun hlong => absurd hlong hshort

end Commands

namespace Session

/-- The arguments with which what a name is dispatched to crashes. -/
def Crashes (host : Program.Host) (around : Surroundings) (w : Commands.Workspace)
    (arguments : List Text) : Dispatch → Prop
  | .command .tail => Commands.AsksTooMuch arguments w around.home?
  | .command .ls =>
    let (options, target) := Listing.Options.parse arguments
    let p := Path.resolve around.home? w.cwd (target.getD [])
    ∃ entries, w.tree.list p = .ok entries ∧
      if options.long then ¬Listing.Tellable w.tree (Listing.detailed options w.tree p entries)
      else Uncountable host around w.tree
  | .help => Uncountable host around w.tree
  | _ => False

/-- The arguments with which it ends the whole shell. -/
def Aborts (around : Surroundings) (w : Commands.Workspace) (arguments : List Text) :
    Dispatch → Prop
  | .command .tail => Commands.Overdraws arguments w around.home? around.memory
  | _ => False

variable (host : Program.Host) (s : Session) (around : Surroundings) (arguments : List Text)

theorem runCommand_tail :
    s.runCommand host around .tail arguments =
      (s, Commands.tail (s.setting around usualColumns) arguments s.workspace) :=
  rfl

theorem isAnswered_help (columns : Nat) : (s.help host around columns arguments).2.IsAnswered := by
  rw [help]
  split
  case h_1 => exact ⟨_, rfl⟩
  case h_2 =>
    obtain ⟨t, ht⟩ := Help.exists_table_eq_ok (s.colours around) (Help.pageWidth columns)
    rw [ht]
    exact ⟨_, rfl⟩

theorem endsAs_runHelp :
    (s.runHelp host around arguments).2.EndsAs (Uncountable host around s.tree) False := by
  have hcount := exists_measure_eq_ok_iff host s around
  rw [runHelp]
  generalize s.measure host around = measured at hcount
  obtain ⟨s', why | columns⟩ := measured
  · refine .crashed (by_contra fun hnot => ?_) not_false
    obtain ⟨_, ⟨⟩⟩ := hcount.mpr hnot
  · obtain ⟨o, ho⟩ := s'.isAnswered_help host around arguments columns
    dsimp only
    rw [ho]
    exact .answered (hcount.mp ⟨columns, rfl⟩) not_false

section Listing

variable {options : Listing.Options} {target : Option Text}
  (hparse : Listing.Options.parse arguments = (options, target))

include hparse

theorem needsColumns_ls : s.needsColumns around .ls arguments =
    (!options.long && (s.tree.list (s.resolve around (target.getD []))).toOption.isSome) := by
  simp only [needsColumns, hparse, listsInColumns]

theorem crashes_ls_iff : Crashes host around s.workspace arguments (.command .ls) ↔
    ∃ entries, s.tree.list (s.resolve around (target.getD [])) = .ok entries ∧
      if options.long then ¬Listing.Tellable s.tree
        (Listing.detailed options s.tree (s.resolve around (target.getD [])) entries)
      else Uncountable host around s.tree := by
  simp only [Crashes, hparse]
  rfl

theorem endsAs_runOn_ls (columns : Nat) :
    (s.runOn around columns .ls arguments).2.EndsAs
      (¬∀ entries, s.tree.list (s.resolve around (target.getD [])) = .ok entries →
        options.long = true → Listing.Tellable s.tree
          (Listing.detailed options s.tree (s.resolve around (target.getD [])) entries)) False :=
  (Ending.EndsAs.of_answer
      (Commands.ls (s.setting around columns) arguments s.workspace)).congr
    (not_congr (Commands.exists_ls_eq_ok_iff (s.setting around columns) arguments s.workspace
      hparse).symm) Iff.rfl

end Listing

/-- A listing crashes for details that cannot be told, or for columns that cannot be counted. -/
theorem endsAs_runCommand_ls :
    (s.runCommand host around .ls arguments).2.EndsAs
      (Crashes host around s.workspace arguments (.command .ls)) False := by
  obtain ⟨options, target, hparse⟩ :
      ∃ options target, Listing.Options.parse arguments = (options, target) := ⟨_, _, rfl⟩
  have hneeds := needsColumns_ls s around arguments hparse
  have hcount := exists_measure_eq_ok_iff host s around
  rw [crashes_ls_iff host s around arguments hparse, runCommand]
  -- the columns are asked for exactly where a listing in columns has something to list
  cases hneed : s.needsColumns around .ls arguments with
  | true =>
    rw [hneed, eq_comm, Bool.and_eq_true, Bool.not_eq_true'] at hneeds
    obtain ⟨hshort, hlisted⟩ := hneeds
    cases hlist : s.tree.list (s.resolve around (target.getD [])) with
    | error e =>
      rw [hlist] at hlisted
      cases hlisted
    | ok entries =>
      rw [if_pos rfl]
      generalize s.measure host around = measured at hcount
      obtain ⟨s', why | columns⟩ := measured
      · refine .crashed ⟨entries, rfl, ?_⟩ not_false
        rw [hshort]
        refine by_contra fun hnot => ?_
        obtain ⟨_, ⟨⟩⟩ := hcount.mpr hnot
      · refine (endsAs_runOn_ls s around arguments hparse columns).congr ?_ Iff.rfl
        refine iff_of_false ?_ (by simp [hshort])
        rintro ⟨_, -, hcrash⟩
        rw [hshort] at hcrash
        exact hcount.mp ⟨columns, rfl⟩ hcrash
  | false =>
    rw [if_neg Bool.false_ne_true]
    refine (endsAs_runOn_ls s around arguments hparse usualColumns).congr ?_ Iff.rfl
    cases hlist : s.tree.list (s.resolve around (target.getD [])) with
    | error e => simp
    | ok entries =>
      have hlong : options.long = true := by simpa [hneed, hlist, Except.toOption] using hneeds
      simp [hlong]

theorem endsAs_dispatch (i : Line.Invocation) :
    (s.dispatch host around i).2.EndsAs
      (Crashes host around s.workspace i.arguments (Dispatch.ofKey i.key))
      (Aborts around s.workspace i.arguments (Dispatch.ofKey i.key)) := by
  rw [dispatch]
  cases Dispatch.ofKey i.key with
  | command c =>
    cases c with
    | ls => exact s.endsAs_runCommand_ls host around i.arguments
    | tail => exact Commands.endsAs_tail (s.setting around usualColumns) i.arguments s.workspace
    | _ => exact .answered not_false not_false
  | help => exact s.endsAs_runHelp host around i.arguments
  | history | clear | echo | program | notFound => exact .answered not_false not_false

/-- A file for the message changes nothing about how a line ends. -/
theorem endsAs_carryOut (i : Line.Invocation) (r : Line.Redirection) :
    (s.carryOut host around i r).2.EndsAs
      (Crashes host around s.workspace i.arguments (Dispatch.ofKey i.key))
      (Aborts around s.workspace i.arguments (Dispatch.ofKey i.key)) := by
  cases htarget : r.output with
  | none =>
    rw [carryOut, htarget]
    exact s.endsAs_dispatch host around i
  | some target =>
    have hends := { s with coloursOverride := some false }.endsAs_dispatch host around i
    rcases s.carryOut_redirected_cases host around i htarget with
      ⟨s', ending, -, hdispatch, hout⟩ | ⟨s', o, s'', o', hdispatch, -, hout⟩
    · rw [hout]
      rwa [hdispatch] at hends
    · rw [hout]
      rw [hdispatch] at hends
      cases hends with
      | answered hc ha => exact .answered hc ha

/-- A line is read as what crashes with its arguments. -/
def LineCrashes (w : Commands.Workspace) (line : Text) : Prop :=
  isExit line = false ∧ ∃ i r, Line.parse line = .ok (i, r) ∧
    Crashes host around w i.arguments (Dispatch.ofKey i.key)

/-- A line is read as what ends the whole shell with its arguments. -/
def LineAborts (around : Surroundings) (w : Commands.Workspace) (line : Text) : Prop :=
  isExit line = false ∧ ∃ i r, Line.parse line = .ok (i, r) ∧
    Aborts around w i.arguments (Dispatch.ofKey i.key)

/-- How a line ends follows from what it is read as. -/
theorem endsAs_execute (line : Text) :
    (s.execute host around line).2.EndsAs (LineCrashes host around s.workspace line)
      (LineAborts around s.workspace line) := by
  rw [execute]
  split
  case isTrue hexit => exact .answered (by simp [LineCrashes, hexit]) (by simp [LineAborts, hexit])
  case isFalse hexit =>
    rw [Bool.not_eq_true] at hexit
    split
    case h_1 e hparse =>
      exact .answered (by simp [LineCrashes, hparse]) (by simp [LineAborts, hparse])
    case h_2 i r hparse =>
      refine (s.endsAs_carryOut host around i r).congr ?_ ?_
      · simp [LineCrashes, hexit, hparse]
      · simp [LineAborts, hexit, hparse]

/-- Every line comes to an outcome, in whatever session and on whatever terminal, unless it is read
as what crashes with its arguments, or as what asks for memory that is not granted. -/
theorem execute_isAnswered_iff (host : Program.Host) (s : Session) (around : Surroundings)
    (line : Text) :
    (s.execute host around line).2.IsAnswered ↔
      ∀ i r, isExit line = false → Line.parse line = .ok (i, r) →
        ¬Crashes host around s.workspace i.arguments (Dispatch.ofKey i.key) ∧
          ¬Aborts around s.workspace i.arguments (Dispatch.ofKey i.key) := by
  rw [(s.endsAs_execute host around line).isAnswered_iff]
  constructor
  · exact fun ⟨hc, ha⟩ i r hexit hparse =>
      ⟨fun hcrash => hc ⟨hexit, i, r, hparse, hcrash⟩,
        fun habort => ha ⟨hexit, i, r, hparse, habort⟩⟩
  · exact fun hall => ⟨fun ⟨hexit, i, r, hparse, hcrash⟩ => (hall i r hexit hparse).1 hcrash,
      fun ⟨hexit, i, r, hparse, habort⟩ => (hall i r hexit hparse).2 habort⟩

/-- The arguments of `tail` that ask for more lines of a file than any memory has room for. -/
def beyondMemory : List Text :=
  ["-n".toList, "18446744073709551615".toList, ['f']]

theorem asksTooMuch_beyondMemory :
    Commands.AsksTooMuch beyondMemory (withOneFile 0o644).workspace
      ((withOneFile 0o644).setting bareSurroundings usualColumns).home :=
  ⟨18446744073709551615, ['f'], by decide, FileTree.isFile_of_find (find_oneFile 0o644), by decide⟩

theorem tail_beyondMemory_crashes :
    ((withOneFile 0o644).execute noPrograms bareSurroundings
      "tail -n 18446744073709551615 f").2 = .crashed .capacity := by
  have hparse : Line.parse "tail -n 18446744073709551615 f" =
      .ok ({ name := "tail".toList, arguments := beyondMemory }, {}) := by decide
  have hrun := execute_of_parse noPrograms (withOneFile 0o644) bareSurroundings (by decide) hparse
    (Dispatch.ofKey_lower_name .tail)
  rw [hrun, answer, runCommand_tail, Commands.tail_eq_crashed _ _ _ asksTooMuch_beyondMemory]

end Session

end LineShell

import LineShell.Proofs.Session.Execute
import LineShell.Proofs.Session.Starts

/-! Programs that need the terminal. The names of their classes are no names of commands, but one:
a `tail` that follows a file is classed as a program, and answered by the command. -/

namespace LineShell.Session

open Program

variable {s : Session} {around : Surroundings} {i : Line.Invocation} {program : Path}

/-- An invocation starts a program with the terminal and without a time limit, starts nothing else,
and comes to what that program comes to. -/
structure RunsAttached (s : Session) (around : Surroundings) (i : Line.Invocation)
    (program : Path) : Prop where
  starts : ∀ t l, Starts (fun host => s.dispatch host around i) t l ↔
    t = s.tree ∧ l = s.launch around program i.arguments none
  ends : ∀ host, s.dispatch host around i =
    ((s.runAttached host around i.name program i.arguments).1,
      .answered (s.runAttached host around i.name program i.arguments).2)

/-- No name of a class that has the terminal is reserved. -/
theorem ofKey_attachedNames :
    ∀ name ∈ interactiveNames ++ streamingNames, Dispatch.ofKey name.toList = .program := by
  decide +kernel

/-- A program that has the terminal has no reserved name, unless it follows a file. -/
theorem ofKey_of_attached (hclass : (classify i.name i.arguments).attached = true) :
    Dispatch.ofKey i.key = .program ∨ i.key = Command.tail.name := by
  have hnames {names : List String} (hsub : names ⊆ interactiveNames ++ streamingNames)
      (h : (names.map String.toList).contains i.key = true) :
      Dispatch.ofKey i.key = .program := by
    obtain ⟨name, hname, hkey⟩ := List.mem_map.mp (List.contains_iff_mem.mp h)
    exact hkey ▸ ofKey_attachedNames name (hsub hname)
  rw [classify] at hclass
  split at hclass
  case isTrue h => exact .inl (hnames (List.subset_append_left _ _) h)
  split at hclass
  case isTrue h => exact .inl (hnames (List.subset_append_right _ _) h)
  split at hclass
  case isTrue h => exact .inr h.1
  case isFalse => cases hclass

/-- The command `tail` asks nothing of the system. -/
theorem not_starts_tail (hkey : i.key = Command.tail.name) {t : FileTree} {l : Launch} :
    ¬Starts (fun host => s.dispatch host around i) t l :=
  not_starts_of_ofKey ((Line.Invocation.ofKey_eq_command_iff (by decide)).mpr hkey) (by decide)

theorem runsAttached_of_free (hclass : (classify i.name i.arguments).attached = true)
    (hprogram : s.programFor around i.name = some program)
    (hfree : Dispatch.ofKey i.key = .program) : s.RunsAttached around i program := by
  constructor
  case starts =>
    intro t l
    rw [starts_dispatch_iff hfree hprogram, started, if_pos hclass]
  case ends =>
    intro host
    rw [dispatch_free hfree, runProgram_eq hprogram, if_pos hclass]

/-- An invocation whose program needs the terminal gives it the terminal, unless the command `tail`
takes its place. No program is started then. -/
theorem runsAttached_iff (hclass : (classify i.name i.arguments).attached = true)
    (hprogram : s.programFor around i.name = some program) :
    (s.RunsAttached around i program ↔ i.key ≠ Command.tail.name) ∧
      (i.key = Command.tail.name →
        ∀ t l, ¬Starts (fun host => s.dispatch host around i) t l) := by
  refine ⟨⟨fun hruns hkey => ?_, fun hkey => ?_⟩, fun hkey t l => not_starts_tail hkey⟩
  · exact not_starts_tail hkey ((hruns.starts _ _).mpr ⟨rfl, rfl⟩)
  · exact runsAttached_of_free hclass hprogram ((ofKey_of_attached hclass).resolve_right hkey)

/-- An editor by a name in capitals. -/
theorem runsAttached_folded :
    (classify "VIM" ["log".toList]).attached = true ∧
      (withProgram "vim").programFor searchingRoot "VIM" = some "/vim".toList ∧
      (withProgram "vim").RunsAttached searchingRoot
        { name := "VIM".toList, arguments := ["log".toList] } "/vim" := by
  have hclass : (classify "VIM" ["log".toList]).attached = true := by decide +kernel
  have hlocate : locate (withProgram "vim").tree searchingRoot.environment
      (withProgram "vim").cwd "VIM" = none :=
    locate_withProgram (by decide) (by decide)
  have hfolded : locateFolded (withProgram "vim").tree searchingRoot.environment
      (withProgram "vim").cwd "VIM" = some "/vim".toList :=
    locateFolded_withProgram (by decide) (by decide) (by decide) (by decide)
  have hprogram : (withProgram "vim").programFor searchingRoot "VIM" = some "/vim".toList := by
    rw [programFor, hlocate, hfolded, Option.none_or]
  exact ⟨hclass, hprogram, (runsAttached_iff hclass hprogram).1.mpr (by decide)⟩

/-- A file that is followed is shown once, by the command. -/
theorem not_runsAttached_tail :
    (classify "tail" ["-f".toList, "log".toList]).attached = true ∧
      (withProgram "tail").programFor searchingRoot "tail" = some "/tail".toList ∧
      ¬(withProgram "tail").RunsAttached searchingRoot
        { name := "tail".toList, arguments := ["-f".toList, "log".toList] } "/tail" ∧
      ∀ t l, ¬Starts (fun host => (withProgram "tail").dispatch host searchingRoot
        { name := "tail".toList, arguments := ["-f".toList, "log".toList] }) t l := by
  have hlocate : locate (withProgram "tail").tree searchingRoot.environment
      (withProgram "tail").cwd "tail" = some "/tail".toList :=
    locate_withProgram (by decide) (by decide)
  have hnone := @not_starts_tail (withProgram "tail") searchingRoot
    { name := "tail".toList, arguments := ["-f".toList, "log".toList] } (by decide)
  exact ⟨by decide +kernel, by rw [programFor, hlocate, Option.some_or],
    fun hruns => hnone ((hruns.starts _ _).mpr ⟨rfl, rfl⟩), fun _ _ => hnone⟩

end LineShell.Session

import LineShell.Proofs.Files.Walk
import LineShell.Proofs.Program.Starts
import LineShell.Proofs.Session.Execute

/-! Which programs an invocation starts. A name that is not reserved starts the program that it
stands for, and that alone; a reserved one, apart from those that look at the terminal or ask
programs to describe themselves, starts none. -/

namespace LineShell.Session

open Program

variable {s : Session} {around : Surroundings} {i : Line.Invocation} {program : Path}

/-- How an invocation starts its program. -/
def started (s : Session) (around : Surroundings) (i : Line.Invocation) (program : Path) : Launch :=
  s.launch around program i.arguments
    (if (classify i.name i.arguments).attached then none else some around.limit)

theorem dispatch_free (hfree : Dispatch.ofKey i.key = .program) (host : Host) :
    s.dispatch host around i = ((s.runProgram host around i.name i.arguments).1,
      .answered (s.runProgram host around i.name i.arguments).2) :=
  s.dispatch_eq host around hfree

theorem runProgram_eq (hprogram : s.programFor around i.name = some program) (host : Host) :
    s.runProgram host around i.name i.arguments =
      if (classify i.name i.arguments).attached then
        s.runAttached host around i.name program i.arguments
      else s.runCaptured host around i.name program i.arguments := by
  rw [runProgram, hprogram]

/-- A system that starts nothing. -/
def refusing (e : IoError) : Host :=
  fun _ _ => .error e

theorem runProgram_refusing (hprogram : s.programFor around i.name = some program) (e : IoError) :
    s.runProgram (refusing e) around i.name i.arguments =
      (s.calm, (LineError.spawn e).outcome) := by
  rw [runProgram_eq hprogram]
  split <;> rfl

theorem asksOnly_runProgram (hprogram : s.programFor around i.name = some program) :
    AsksOnly (fun host => s.runProgram host around i.name i.arguments) s.tree
      (s.started around i program) := by
  intro host host' hsame
  dsimp only
  rw [runProgram_eq hprogram, runProgram_eq hprogram]
  rw [started] at hsame
  split
  case isTrue h =>
    rw [if_pos h] at hsame
    have hsame : host s.calm.tree (s.calm.launch around program i.arguments none) =
      host' s.calm.tree (s.calm.launch around program i.arguments none) := hsame
    rw [runAttached, runAttached, hsame]
  case isFalse h =>
    rw [if_neg h] at hsame
    have hsame : host s.calm.tree (s.calm.launch around program i.arguments (some around.limit)) =
      host' s.calm.tree (s.calm.launch around program i.arguments (some around.limit)) := hsame
    rw [runCaptured, runCaptured, hsame]

theorem starts_dispatch_iff (hfree : Dispatch.ofKey i.key = .program)
    (hprogram : s.programFor around i.name = some program) {t : FileTree} {l : Launch} :
    Starts (fun host => s.dispatch host around i) t l ↔
      t = s.tree ∧ l = s.started around i program := by
  have honly : AsksOnly (fun host => s.dispatch host around i) s.tree
      (s.started around i program) := by
    intro host host' hsame
    have hrun := asksOnly_runProgram hprogram host host' hsame
    dsimp only at hrun ⊢
    rw [dispatch_free hfree, dispatch_free hfree, hrun]
  have hne : s.dispatch (refusing .nulInPath) around i ≠
      s.dispatch (refusing .notRegular) around i := by
    have hmessages : (LineError.spawn .nulInPath).outcome ≠ (LineError.spawn .notRegular).outcome :=
      by decide
    rw [dispatch_free hfree, dispatch_free hfree, runProgram_refusing hprogram,
      runProgram_refusing hprogram]
    exact fun heq => hmessages (Ending.answered.inj (congrArg Prod.snd heq))
  exact honly.starts_iff hne

/-- A name that stands for no program starts none. -/
theorem not_starts_dispatch (hfree : Dispatch.ofKey i.key = .program)
    (hprogram : s.programFor around i.name = none) {t : FileTree} {l : Launch} :
    ¬Starts (fun host => s.dispatch host around i) t l := by
  refine not_starts_of_forall_eq fun host host' => ?_
  simp only [dispatch_free hfree, runProgram, hprogram]

/-- What neither looks at the terminal nor is a program starts none. -/
theorem not_starts_of_ofKey {d : Dispatch} (hkey : Dispatch.ofKey i.key = d)
    (hd : d ≠ .command .ls ∧ d ≠ .help ∧ d ≠ .program) {t : FileTree} {l : Launch} :
    ¬Starts (fun host => s.dispatch host around i) t l := by
  obtain ⟨hls, hhelp, hprogram⟩ := hd
  refine not_starts_of_forall_eq fun host host' => ?_
  rw [s.dispatch_eq host around hkey, s.dispatch_eq host' around hkey]
  cases d with
  | command c =>
    cases c with
    | ls => exact absurd rfl hls
    | _ => rfl
  | help => exact absurd rfl hhelp
  | program => exact absurd rfl hprogram
  | history | clear | echo | notFound => rfl

/-- A session in a root directory with one program in it, and nothing else. -/
def withProgram (name : Text) : Session :=
  { cwd := ['/'],
    tree :=
      { root := .dir 0o755 0 [(Name.ofText name, .file 0)],
        files := [{ bytes := [], mode := 0o755, changed := 0 }] } }

/-- Programs are looked for in the root directory. -/
def searchingRoot : Surroundings :=
  { environment := [("PATH".toList, ['/'])], account := none, directory := ['/'],
    columns := some 80, clock := 1, zone := fun _ => 0, colours := false, limit := usualLimit,
    memory := usualMemory }

theorem isProgram_withProgram (name typed : Text) {p : Path}
    (hp : FileTree.FromRoot p (Name.ofText typed)) :
    isProgram (withProgram name).tree p = (Name.ofText typed == Name.ofText name) := by
  have hsearch : Access.search.granted 0o755 = true := by decide
  have hlink : (List.lookup (Name.ofText typed) [(Name.ofText name, Node.file 0)]).any
      Node.isLink = false := by
    rw [List.lookup_cons]
    split <;> rfl
  have hfind : (withProgram name).tree.find true p =
      .ok (FileTree.lookedUp [] (Name.ofText typed) [(Name.ofText name, Node.file 0)]) :=
    FileTree.find_fromRoot hsearch _ rfl hp hlink
  rw [isProgram, FileTree.isFile, FileTree.node, hfind, FileTree.lookedUp, List.lookup_cons]
  cases Name.ofText typed == Name.ofText name <;> rfl

theorem locate_withProgram {name typed : Text}
    (hcandidates : candidates searchingRoot.environment ['/'] typed = ['/' :: typed])
    (hp : FileTree.FromRoot ('/' :: typed) (Name.ofText typed)) :
    locate (withProgram name).tree searchingRoot.environment (withProgram name).cwd typed =
      if Name.ofText typed == Name.ofText name then some ('/' :: typed) else none := by
  rw [locate]
  change (candidates _ ['/'] typed).find? _ = _
  rw [hcandidates, List.find?_singleton, isProgram_withProgram name typed hp]

theorem locateFolded_withProgram {name typed : Text} (hlower : Text.lower typed = name)
    (hother : name ≠ typed)
    (hcandidates : candidates searchingRoot.environment ['/'] name = ['/' :: name])
    (hp : FileTree.FromRoot ('/' :: name) (Name.ofText name)) :
    locateFolded (withProgram name).tree searchingRoot.environment (withProgram name).cwd typed =
      some ('/' :: name) := by
  rw [locateFolded, hlower, if_neg hother, locate_withProgram hcandidates hp,
    if_pos (beq_self_eq_true _)]

end LineShell.Session

import LineShell.Proofs.Files.Resolve
import LineShell.Proofs.Session.Loop

/-! The directory of a session along all its lines, and the paths that are typed in it. -/

namespace LineShell

theorem Path.IsClosed.entered {P : Path → Prop} {home : Option Path} {cwd cwd' : Path}
    (h : IsClosed P) (hcwd : P cwd) (hhome : ∀ p ∈ home, P p) (hentered : Entered home cwd cwd') :
    P cwd' := by
  rcases hentered with rfl | hhere | ⟨typed, rfl⟩
  · exact hcwd
  · exact hhome cwd' hhere
  · exact h.resolve hcwd home typed

namespace Session

/-- A line carried out enters a directory at most, whatever becomes of it. -/
theorem entered_execute (host : Program.Host) (s : Session) (around : Surroundings) (line : Text) :
    Path.Entered around.home? s.cwd (s.execute host around line).1.cwd := by
  rw [execute]
  split
  case isTrue => exact .inl rfl
  case isFalse =>
    split
    case h_1 => exact .inl rfl
    case h_2 i r _ =>
      have henters := { s with coloursOverride := some false }.enters_dispatch host around i
      cases htarget : r.output with
      | none =>
        rw [carryOut, htarget]
        exact (s.enters_dispatch host around i).cwd
      | some target =>
        rcases s.carryOut_redirected_cases host around i htarget with
          ⟨s', ending, -, hdispatch, hout⟩ | ⟨s', o, s'', o', hdispatch, halike, hout⟩ <;>
          rw [hdispatch] at henters <;> rw [hout]
        · exact henters.cwd
        · rw [halike.cwd]
          exact henters.cwd

/-- What becomes of a session with a home directory: lines are carried out, each with what it finds
around it, and between them anything changes but the directory. -/
inductive Course (home : Option Path) (first : Session) : Session → Prop
  | start : Course home first first
  | line {s : Session} (h : Course home first s) (host : Program.Host) (around : Surroundings)
      (hhome : around.home? = home) (line : Text) :
      Course home first (s.execute host around line).1
  | meanwhile {s s' : Session} (h : Course home first s) (hcwd : s'.cwd = s.cwd) :
      Course home first s'

/-- The loop of a session takes such a course. -/
theorem Course.runLines {home : Option Path} {first s : Session} (h : Course home first s)
    (host : Program.Host) (around : Surroundings) (hhome : around.home? = home)
    (prompting : Bool) (n : Nat) : Course home first (runLines host around prompting n s).1 := by
  induction n generalizing s with
  | zero => exact h
  | succ n ih =>
    have hturn : Course home first s.readLine.2 := h.meanwhile s.alike_readLine.cwd
    rcases runLines_succ_cases host around prompting n s with
      hstop | ⟨s', hread, hblank⟩ | ⟨line, s', hread, -, hrun⟩
    · rwa [hstop]
    · rw [hread] at hturn
      rw [hblank]
      exact ih hturn
    · rw [hread] at hturn
      have hremembered : Course home first { s' with history := s'.history.add line } :=
        hturn.meanwhile rfl
      have hline : Course home first (s'.runLine host around line).1 :=
        (hremembered.line host around hhome line).meanwhile rfl
      rw [hrun]
      split
      case isTrue => exact hline
      case isFalse => exact ih hline

/-- What no walk leads out of holds of the directory all along, if it holds of the first directory
and of the home directory. -/
theorem Course.of_isClosed {P : Path → Prop} {home : Option Path} {first s : Session}
    (h : Course home first s) (hP : Path.IsClosed P) (hfirst : P first.cwd)
    (hhome : ∀ p ∈ home, P p) : P s.cwd := by
  induction h with
  | start => exact hfirst
  | line _ host around haround line ih =>
    exact hP.entered ih hhome (haround ▸ entered_execute host _ around line)
  | meanwhile _ hcwd ih => rwa [hcwd]

/-- A session that starts in a normal directory stays in normal ones, and every typed path names a
normal path there, which names itself wherever it is typed. No lone dot ever comes into the text of
a path, and where the first paths are spelled tidily all others are, and name themselves to the
letter. -/
theorem Course.isNormal_cwd_resolve {home : Option Path} {first s : Session}
    (h : Course home first s) (hfirst : first.cwd.IsNormal) (hhome : ∀ p ∈ home, Path.IsNormal p) :
    s.cwd.IsNormal ∧
      (∀ typed, (Path.resolve home s.cwd typed).IsNormal ∧ ∀ elsewhere,
        Path.components (Path.resolve home elsewhere (Path.resolve home s.cwd typed)) =
          Path.components (Path.resolve home s.cwd typed)) ∧
      (first.cwd.Undotted → (∀ p ∈ home, Path.Undotted p) →
        s.cwd.Undotted ∧ ∀ typed, (Path.resolve home s.cwd typed).Undotted) ∧
      (first.cwd.IsTidy → (∀ p ∈ home, Path.IsTidy p) →
        s.cwd.IsTidy ∧ ∀ typed elsewhere,
          Path.resolve home elsewhere (Path.resolve home s.cwd typed) =
            Path.resolve home s.cwd typed) := by
  have hnormal := h.of_isClosed Path.isClosed_isNormal hfirst hhome
  refine ⟨hnormal, fun typed => ?_, fun hfirst hhome => ?_, fun hfirst hhome => ?_⟩
  · have hresolve := Path.isClosed_isNormal.resolve hnormal home typed
    exact ⟨hresolve, fun elsewhere => Path.components_resolve_of_isNormal hresolve⟩
  · have hundotted := h.of_isClosed Path.isClosed_undotted hfirst hhome
    exact ⟨hundotted, Path.isClosed_undotted.resolve hundotted home⟩
  · have htidy := h.of_isClosed Path.isClosed_isTidy hfirst hhome
    exact ⟨htidy, fun typed elsewhere =>
      Path.resolve_of_isTidy (Path.isClosed_isTidy.resolve htidy home typed)⟩

/-- A session somewhere below `/h`, with lines to read that enter other directories. -/
def belowHome : Session :=
  { cwd := "/h/u/w".toList, tree := { root := .dir 0o755 0 [], files := [] },
    input := { left := Text.encode "cd ../../../..//.\ncd ~/../.././x//y/..\ncd\n" } }

/-- What is around it; `/h` is the home directory. -/
def homeInRoot : Surroundings :=
  { environment := [("HOME".toList, "/h".toList)], account := none, directory := ['/'],
    columns := none, clock := 1, zone := fun _ => 0, colours := false, limit := usualLimit,
    memory := usualMemory }

/-- The session after these lines. -/
def afterLines : Session :=
  (runLines (fun _ _ => .error (.os .noEntry)) homeInRoot false (belowHome.input.size + 1)
    belowHome).1

theorem isNormal_cwd_resolve_afterLines :
    belowHome.cwd.IsNormal ∧ (∀ p ∈ homeInRoot.home?, Path.IsNormal p) ∧
      Course homeInRoot.home? belowHome afterLines ∧
      afterLines.cwd.IsNormal ∧ afterLines.cwd.IsTidy ∧
      ∀ elsewhere, Path.resolve homeInRoot.home? elsewhere
          (afterLines.resolve homeInRoot "~/../.././x//y/..") =
        afterLines.resolve homeInRoot "~/../.././x//y/.." := by
  have hhome : Path.IsTidy "/h".toList := .join (p := ['/']) (n := ['h']) .root (by decide)
  have hfirst : belowHome.cwd.IsTidy :=
    .join (p := "/h/u".toList) (n := ['w']) (.join (n := ['u']) hhome (by decide)) (by decide)
  have hhome' : ∀ p ∈ homeInRoot.home?, Path.IsTidy p := by
    rintro p ⟨⟩
    exact hhome
  have hcourse : Course homeInRoot.home? belowHome afterLines :=
    Course.start.runLines _ homeInRoot rfl false _
  obtain ⟨hnormal, -, -, htidy⟩ := hcourse.isNormal_cwd_resolve hfirst.isNormal
    fun p hp => (hhome' p hp).isNormal
  obtain ⟨hcwd, hfixed⟩ := htidy hfirst hhome'
  exact ⟨hfirst.isNormal, fun p hp => (hhome' p hp).isNormal, hcourse, hnormal, hcwd, hfixed _⟩

end Session

end LineShell

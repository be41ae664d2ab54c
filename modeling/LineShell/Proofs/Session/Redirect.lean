import LineShell.Proofs.Session.Leaving
import LineShell.Proofs.Session.Recoloured

/-! The file that the output of a line goes to. Its path is looked up when the command is done, in
the directory that the session is in by then: another one than before only behind a `cd`. -/

namespace LineShell

/-- An absolute path names the same in whatever directory. -/
theorem Path.resolve_of_isAbsolute {home : Option Path} {typed : Text}
    (h : isAbsolute (expandTilde home typed) = true) (cwd cwd' : Path) :
    resolve home cwd typed = resolve home cwd' typed := by
  have hne : typed.isEmpty = false := by
    cases typed with
    | nil => cases h
    | cons c typed => rfl
  simp only [resolve, hne, h, if_true, Bool.false_eq_true, if_false]

/-- A directory that is found is entered. -/
theorem Commands.enter_of_find {s : Setting} {w : Workspace} {typed : Text} {l : Location}
    {d : Node} (hne : typed ≠ []) (h : w.tree.find true (w.resolve s typed) = .ok (.entry l d))
    (hdir : d.isDir = true) : enter s w typed = .ok (w.resolve s typed) := by
  have hnode : w.tree.node true (w.resolve s typed) = .ok d :=
    (FileTree.node_eq_ok_iff _ _ _ _).mpr ⟨l, h⟩
  have htyped : typed.isEmpty = false := by simpa using hne
  have hthere : w.tree.isThere (w.resolve s typed) = true := by
    rw [FileTree.isThere, hnode]
    rfl
  have hdirectory : w.tree.isDir (w.resolve s typed) = true := by
    rw [FileTree.isDir, hnode]
    exact hdir
  simp [enter, htyped, hthere, hdirectory]

namespace Session

open Program

variable (host : Host) (s : Session) (around : Surroundings)

/-- A line that ends the session sends nothing anywhere. -/
theorem isExit_of_output {line : Text} {i : Line.Invocation} {r : Line.Redirection}
    (hparse : Line.parse line = .ok (i, r)) (hout : r.output ≠ none) : isExit line = false := by
  rw [Bool.eq_false_iff]
  intro hexit
  obtain ⟨rfl, -⟩ := (isBareExit_of_isExit hexit).1.parsed hparse
  exact hout rfl

/-- The output of a line goes to the file at a path: the command is carried out without colours,
and unless it comes to nothing itself, its message is sent there. -/
def SendsTo (line : Text) (i : Line.Invocation) (append : Bool) (path : Path) : Prop :=
  (∃ s' ending, (∀ o, ending ≠ .answered o) ∧
    { s with coloursOverride := some false }.dispatch host around i = (s', ending) ∧
      s.execute host around line = (s', ending)) ∨
    ∃ s' o, { s with coloursOverride := some false }.dispatch host around i = (s', .answered o) ∧
      s.execute host around line =
        (({ s' with coloursOverride := none }.redirect around i.key o path append).1,
          .answered ({ s' with coloursOverride := none }.redirect around i.key o path append).2)

section SendsTo

variable {line : Text} {i : Line.Invocation} {r : Line.Redirection} {target : Text}

/-- Once the command is done, its message is sent to what the target names by then. -/
theorem execute_of_dispatch (hparse : Line.parse line = .ok (i, r)) (hout : r.output = some target)
    {mid : Session} {o : Outcome}
    (hcommand : { s with coloursOverride := some false }.dispatch host around i =
      (mid, .answered o)) :
    s.execute host around line =
      (({ mid with coloursOverride := none }.redirect around i.key o (mid.resolve around target)
          r.append).1,
        .answered ({ mid with coloursOverride := none }.redirect around i.key o
          (mid.resolve around target) r.append).2) := by
  have hexit := isExit_of_output hparse (by rw [hout]; exact Option.some_ne_none target)
  rw [s.execute_of_parse_eq host around hexit hparse]
  simp only [carryOut, hout, hcommand]
  rfl

/-- The path is looked up in the directory that the command leaves the session in. -/
theorem sendsTo_of_dispatch (hparse : Line.parse line = .ok (i, r))
    (hout : r.output = some target) {cwd : Path}
    (hcwd : ({ s with coloursOverride := some false }.dispatch host around i).1.cwd = cwd) :
    SendsTo host s around line i r.append ({ s with cwd }.resolve around target) := by
  obtain ⟨⟨s', ending⟩, hdispatch⟩ :
      ∃ d, { s with coloursOverride := some false }.dispatch host around i = d := ⟨_, rfl⟩
  rw [hdispatch] at hcwd
  cases ending with
  | crashed why | aborted bytes =>
    have hexit := isExit_of_output hparse (by rw [hout]; exact Option.some_ne_none target)
    refine .inl ⟨s', _, by rintro _ ⟨⟩, hdispatch, ?_⟩
    rw [s.execute_of_parse_eq host around hexit hparse]
    simp only [carryOut, hout, hdispatch]
  | answered o =>
    have hresolve : s'.resolve around target = { s with cwd }.resolve around target := by
      rw [resolve, resolve, hcwd]
    have hdone := s.execute_of_dispatch host around hparse hout hdispatch
    exact .inr ⟨s', o, hdispatch, hresolve ▸ hdone⟩

/-- The target of a line is looked up in the directory that the line was typed in, but behind a `cd`
that leads elsewhere it is looked up there. An absolute target is the same file in both. -/
theorem execute_sendsTo (hparse : Line.parse line = .ok (i, r)) (hout : r.output = some target) :
    (Dispatch.ofKey i.key ≠ .command .cd →
      SendsTo host s around line i r.append (s.resolve around target)) ∧
    (Dispatch.ofKey i.key = .command .cd →
      (∀ f, s.entering around i = .error f →
        SendsTo host s around line i r.append (s.resolve around target)) ∧
      ∀ d, s.entering around i = .ok d →
        SendsTo host s around line i r.append ({ s with cwd := d }.resolve around target)) ∧
    (Path.isAbsolute (Path.expandTilde around.home? target) = true →
      SendsTo host s around line i r.append (s.resolve around target)) := by
  have hsends {cwd : Path}
      (hcwd : ({ s with coloursOverride := some false }.dispatch host around i).1.cwd = cwd) :=
    s.sendsTo_of_dispatch host around hparse hout hcwd
  refine ⟨fun hi => ?_, fun hi => ?_, fun habs => ?_⟩
  · exact hsends ({ s with coloursOverride := some false }.alike_dispatch host around hi).cwd
  · have hdispatch := { s with coloursOverride := some false }.dispatch_cd host around hi
    constructor
    · intro f hf
      have hstays : { s with coloursOverride := some false }.entering around i = .error f := hf
      rw [hstays] at hdispatch
      exact hsends (congrArg (·.1.cwd) hdispatch)
    · intro d hd
      have henters : { s with coloursOverride := some false }.entering around i = .ok d := hd
      rw [henters] at hdispatch
      exact hsends (congrArg (·.1.cwd) hdispatch)
  · have hsent := hsends rfl
    rwa [resolve, Path.resolve_of_isAbsolute habs _ s.cwd] at hsent

end SendsTo

/-- A session in the root directory, with one directory below it. -/
def aboveDirectory : Session :=
  { cwd := ['/'], tree := oneDirectory ['d'] }

theorem find_aboveDirectory : aboveDirectory.tree.find true (['/', 'd'] : Path) =
    .ok (.entry [Name.ofText ['d']] (.dir 0o755 0 [])) := by
  have hd : FileTree.FromRoot ['/', 'd'] (Name.ofText ['d']) := by decide
  rw [FileTree.find_fromRoot (by decide) aboveDirectory.tree rfl hd rfl]
  rfl

/-- `cd d` as it is read. -/
def toDirectory : Line.Invocation :=
  { name := "cd", arguments := [['d']] }

theorem parse_toDirectory :
    Line.parse "cd d > t" = .ok (toDirectory, { output := some ['t'] }) := by
  decide

theorem entering_aboveDirectory :
    aboveDirectory.entering bareSurroundings toDirectory = .ok ['/', 'd'] := by
  have hresolve : aboveDirectory.workspace.resolve
      (aboveDirectory.setting bareSurroundings usualColumns) ['d'] = ['/', 'd'] := by
    change Path.resolve none ['/'] ['d'] = ['/', 'd']
    decide
  have hfind := find_aboveDirectory
  rw [← hresolve] at hfind ⊢
  exact Commands.enter_of_find (List.cons_ne_nil _ _) hfind rfl

theorem execute_sendsTo_aboveDirectory :
    Line.parse "cd d > t" = .ok (toDirectory, { output := some ['t'] }) ∧
      Dispatch.ofKey toDirectory.key = .command .cd ∧
      aboveDirectory.entering bareSurroundings toDirectory = .ok ['/', 'd'] ∧
      SendsTo noPrograms aboveDirectory bareSurroundings "cd d > t" toDirectory false
        ['/', 'd', '/', 't'] := by
  have hcd : Dispatch.ofKey toDirectory.key = .command .cd := by decide
  have hresolve : { aboveDirectory with cwd := ['/', 'd'] }.resolve bareSurroundings ['t'] =
      ['/', 'd', '/', 't'] := by
    change Path.resolve none ['/', 'd'] ['t'] = ['/', 'd', '/', 't']
    decide
  obtain ⟨-, hmoves, -⟩ := aboveDirectory.execute_sendsTo noPrograms bareSurroundings
    parse_toDirectory rfl
  exact ⟨parse_toDirectory, hcd, entering_aboveDirectory,
    hresolve ▸ (hmoves hcd).2 _ entering_aboveDirectory⟩

/-- The session once `cd d` is done. -/
def inDirectory : Session :=
  { aboveDirectory with cwd := ['/', 'd'], coloursOverride := some false }

theorem dispatch_aboveDirectory :
    { aboveDirectory with coloursOverride := some false }.dispatch noPrograms bareSurroundings
        toDirectory = (inDirectory, .answered (.success ("Changed to " ++ ['/', 'd']))) := by
  have hentering : { aboveDirectory with coloursOverride := some false }.entering bareSurroundings
    toDirectory = .ok ['/', 'd'] := entering_aboveDirectory
  rw [dispatch_cd _ _ _ (by decide), hentering]
  rfl

theorem overwrite_aboveDirectory (bytes : Text.Bytes) :
    ∃ t, aboveDirectory.tree.overwrite 1 (['/', 'd', '/', 't'] : Path) bytes = .ok t := by
  have hroot : FileTree.Passable aboveDirectory.tree.root [] := ⟨_, rfl, rfl, by decide⟩
  have hd : FileTree.Passable aboveDirectory.tree.root [Name.ofText ['d']] :=
    ⟨_, rfl, rfl, by decide⟩
  have hvacant : aboveDirectory.tree.find true (['/', 'd', '/', 't'] : Path) =
      .ok (.vacant [Name.ofText ['d']] (Name.ofText ['t'])) :=
    (FileTree.find_eq_ok_iff _ _ _ _).mpr
      ⟨by decide, .root hroot (.enter hroot (by decide) rfl rfl (.vacant hd (by decide) rfl))⟩
  rw [FileTree.overwrite, FileTree.changeAt, FileTree.openForWriting, hvacant]
  exact ⟨_, rfl⟩

/-- The file is not the one that the target names where the line was typed. -/
theorem not_sendsTo_aboveDirectory :
    aboveDirectory.resolve bareSurroundings ['t'] = ['/', 't'] ∧
      (aboveDirectory.execute noPrograms bareSurroundings "cd d > t").2 =
        .answered (.success "Output of 'cd' redirected to /d/t") ∧
      ¬SendsTo noPrograms aboveDirectory bareSurroundings "cd d > t" toDirectory false
        (aboveDirectory.resolve bareSurroundings ['t']) := by
  have hanswer : (aboveDirectory.execute noPrograms bareSurroundings "cd d > t").2 =
      .answered (.success "Output of 'cd' redirected to /d/t") := by
    obtain ⟨t, ht⟩ := overwrite_aboveDirectory (Text.encode ("Changed to " ++ ['/', 'd']))
    have hwrite : writeMessage inDirectory.tree bareSurroundings.clock ['/', 'd', '/', 't'] false
        (Outcome.success ("Changed to " ++ ['/', 'd'])).message = .ok t := ht
    have hpath : inDirectory.resolve bareSurroundings ['t'] = ['/', 'd', '/', 't'] := by decide
    rw [execute_of_dispatch _ _ _ parse_toDirectory rfl dispatch_aboveDirectory, hpath]
    unfold redirect
    rw [hwrite]
    rfl
  have hresolve : aboveDirectory.resolve bareSurroundings ['t'] = ['/', 't'] := by decide
  refine ⟨hresolve, hanswer, ?_⟩
  rintro (⟨s', ending, hnone, -, hends⟩ | ⟨s', o, -, hsent⟩)
  · rw [hends] at hanswer
    exact hnone _ hanswer
  · rw [hsent, hresolve] at hanswer
    unfold redirect at hanswer
    split at hanswer
    case h_1 => cases hanswer
    case h_2 =>
      cases o with
      | failure text => cases hanswer
      | success text =>
        simp only [Ending.answered.injEq, Outcome.success.injEq] at hanswer
        exact absurd hanswer (by decide)

end Session

end LineShell

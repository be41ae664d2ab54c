import LineShell.Proofs.Session.Effects
import LineShell.Proofs.Session.Inquiry

/-! Reserved names. The tables, the list of the names, the help and the dispatch of an invocation
agree, in whatever case a name is typed, on which names are reserved. No program is started in the
place of one, and what answers it is told by the answer. -/

namespace LineShell

section NotFound

/-- A text that begins otherwise than the sentence about a command that is not found. -/
def BeginsOtherwise (t : Text) : Prop :=
  t.head?.any (· ≠ 'C') = true

instance (t : Text) : Decidable (BeginsOtherwise t) :=
  inferInstanceAs (Decidable (_ = _))

theorem BeginsOtherwise.append {a : Text} (h : BeginsOtherwise a) (b : Text) :
    BeginsOtherwise (a ++ b) := by
  cases a with
  | nil => cases h
  | cons c a => exact h

theorem BeginsOtherwise.joined {a : Text} (h : BeginsOtherwise a) (separator : Text)
    (rest : List Text) : BeginsOtherwise (Text.joined separator (a :: rest)) := by
  obtain ⟨more, hmore⟩ := Text.prefix_joined separator a rest
  exact hmore ▸ h.append more

theorem BeginsOtherwise.failure_ne {t : Text} (h : BeginsOtherwise t) (name : Text) :
    Outcome.failure t ≠ (LineError.commandNotFound name).outcome := by
  intro heq
  rw [Outcome.failure.inj heq] at h
  have hbegins : (LineError.commandNotFound name).message.head? = some 'C' := rfl
  rw [BeginsOtherwise, hbegins] at h
  exact absurd h (by decide)

theorem Command.beginsOtherwise_name (c : Command) : BeginsOtherwise c.name := by
  cases c <;> decide

/-- A complaint begins with the name of a command, or with another small letter. -/
theorem Complaint.beginsOtherwise_message (k : Complaint) : BeginsOtherwise k.message := by
  cases k with
  | missing c | usage c | trouble c | cannot c | reading c | optionWithoutNumber c
  | invalidLineCount c =>
    unfold Complaint.message
    simp only [List.append_assoc]
    exact c.beginsOtherwise_name.append _
  | invalidPattern | noFileName | invalidLimit =>
    unfold Complaint.message
    simp only [List.append_assoc]
    exact BeginsOtherwise.append (by decide) _
  | noHome | noCurrentDirectory => decide

/-- No answer of a command says that a command is not found. -/
theorem Ending.ofAnswer_ne_commandNotFound (r : Except Crash Answer) (name : Text) :
    Ending.ofAnswer r ≠ .answered (LineError.commandNotFound name).outcome := by
  cases r with
  | error why => exact fun heq => nomatch heq
  | ok a =>
    intro heq
    cases a with
    | ok t => cases heq
    | error f =>
      have hmessage : BeginsOtherwise f.message := f.complaint.beginsOtherwise_message.joined _ _
      exact hmessage.failure_ne name (Ending.answered.inj heq)

/-- The page for an unknown name begins with the frame that is drawn around it. -/
theorem Help.beginsOtherwise_unknownPage (on : Bool) (width : Nat) (name : Text) :
    BeginsOtherwise (Help.unknownPage on width name) := by
  have hbar : BeginsOtherwise (Text.Framed.bar on '╔' '═' '╗' (Text.inside width)) := by
    cases on <;> rfl
  exact hbar.joined _ _

end NotFound

namespace Commands

/-- A command comes to an answer, to none, or to the end of the shell. -/
theorem run_cases (s : Setting) (c : Command) (arguments : List Text) (w : Workspace) :
    (∃ r, (run s c arguments w).2 = Ending.ofAnswer r) ∨
      ∃ bytes, (run s c arguments w).2 = .aborted bytes := by
  cases c with
  | ls => exact .inl ⟨_, rfl⟩
  | tail =>
    change (∃ r, tail s arguments w = _) ∨ ∃ bytes, tail s arguments w = _
    rw [tail]
    split
    case h_1 f _ => exact .inl ⟨.ok (.error f), rfl⟩
    case h_2 =>
      split
      case h_1 f _ => exact .inl ⟨.ok (.error f), rfl⟩
      case h_2 =>
        split_ifs
        · exact .inl ⟨.error .capacity, rfl⟩
        · exact .inl ⟨.ok _, rfl⟩
        · exact .inr ⟨_, rfl⟩
  | _ => exact .inl ⟨.ok _, rfl⟩

theorem run_ne_commandNotFound (s : Setting) (c : Command) (arguments : List Text) (w : Workspace)
    (name : Text) :
    (run s c arguments w).2 ≠ .answered (LineError.commandNotFound name).outcome := by
  rcases run_cases s c arguments w with ⟨r, hr⟩ | ⟨bytes, hbytes⟩
  · rw [hr]
    exact Ending.ofAnswer_ne_commandNotFound r name
  · rw [hbytes]
    exact nofun

end Commands

namespace Session

open Program

/-- What answers an invocation of a reserved name. -/
inductive Responder where
  /-- The handler that stands beside the name in the table. -/
  | handler
  /-- The dispatch itself, for a name that is not in the table. -/
  | dispatcher
  /-- Nobody: the name is said not to be found. -/
  | notFound
  deriving DecidableEq, Repr

/-- Who carries out a name that is carried out. -/
def responderFor (i : Line.Invocation) : Responder :=
  if (Registry.handler? i.name).isSome then .handler else .dispatcher

/-- The columns that a command is told, if it has to know them. -/
def columnsFor (host : Host) (s : Session) (around : Surroundings) (c : Command)
    (arguments : List Text) : Except Crash Nat :=
  if s.needsColumns around c arguments then (s.measure host around).2 else .ok usualColumns

/-- How an invocation ends that is answered by each of them. Where the columns cannot be counted,
whoever has to know them comes to nothing. -/
inductive AnsweredBy (host : Host) (s : Session) (around : Surroundings) (i : Line.Invocation) :
    Responder → Ending → Prop
  | handler {c : Command} (hc : Registry.handler? i.name = some c) {columns : Nat}
    (hcolumns : s.columnsFor host around c i.arguments = .ok columns) :
    AnsweredBy host s around i .handler
      (Commands.run (s.setting around columns) c i.arguments s.workspace).2
  | uncounted {c : Command} (hc : Registry.handler? i.name = some c) {why : Crash}
    (hcolumns : s.columnsFor host around c i.arguments = .error why) :
    AnsweredBy host s around i .handler (.crashed why)
  | history (hkey : i.key = "history".toList) : AnsweredBy host s around i .dispatcher
    (.answered (showHistory s.history i.arguments).outcome)
  | clear (hkey : i.key = "clear".toList ∨ i.key = "cls".toList) :
    AnsweredBy host s around i .dispatcher (.answered (.success []))
  | echo (hkey : i.key = "echo".toList) : AnsweredBy host s around i .dispatcher
    (.answered (.success (Text.joined [' '] i.arguments)))
  | help (hkey : i.key = "help".toList) {columns : Nat}
    (hcolumns : (s.measure host around).2 = .ok columns) : AnsweredBy host s around i .dispatcher
    ((s.measure host around).1.help host around columns i.arguments).2
  | uncountedHelp (hkey : i.key = "help".toList) {why : Crash}
    (hcolumns : (s.measure host around).2 = .error why) :
    AnsweredBy host s around i .dispatcher (.crashed why)
  | notFound : AnsweredBy host s around i .notFound
    (.answered (LineError.commandNotFound i.key).outcome)

variable {host : Host} {s : Session} {around : Surroundings} {i : Line.Invocation}

/-- Help says no such sentence: it draws a page. -/
theorem help_ne_commandNotFound (columns : Nat) (arguments : List Text) (name : Text) :
    (s.help host around columns arguments).2 ≠
      .answered (LineError.commandNotFound name).outcome := by
  cases hgiven : arguments.head? with
  | none =>
    rw [help, hgiven]
    exact Ending.ofAnswer_ne_commandNotFound _ name
  | some given =>
    rw [help, hgiven]
    intro heq
    have hpage : (s.helpFor host around columns given).2 =
        (LineError.commandNotFound name).outcome := Ending.answered.inj heq
    rw [helpFor] at hpage
    split at hpage
    case h_1 => cases hpage
    case h_2 =>
      split at hpage
      case h_1 => cases hpage
      case h_2 => exact (Help.beginsOtherwise_unknownPage _ _ _).failure_ne name hpage

/-- A name that the dispatch answers itself is not in the table. -/
theorem responderFor_pseudo (h : i.key ∈ Registry.pseudoCommands) :
    responderFor i = .dispatcher := by
  have hnone : ∀ name ∈ Registry.pseudoCommands, Registry.handlers.lookup name = none := by decide
  have hlookup : Registry.handler? i.name = none := hnone _ h
  rw [responderFor, hlookup]
  rfl

/-- Neither a handler nor the dispatch itself says that the command is not found. -/
theorem AnsweredBy.told {responder : Responder} {e : Ending}
    (h : AnsweredBy host s around i responder e) :
    responder = .notFound ∧ e = .answered (LineError.commandNotFound i.key).outcome ∨
      responder = responderFor i ∧ e ≠ .answered (LineError.commandNotFound i.key).outcome := by
  cases h with
  | @handler c hc columns hcolumns =>
    refine .inr ⟨?_, Commands.run_ne_commandNotFound _ c _ _ _⟩
    rw [responderFor, hc]
    rfl
  | uncounted hc hcolumns =>
    refine .inr ⟨?_, nofun⟩
    rw [responderFor, hc]
    rfl
  | history hkey =>
    refine .inr ⟨(responderFor_pseudo (by rw [hkey]; decide)).symm, ?_⟩
    exact Ending.ofAnswer_ne_commandNotFound (.ok (showHistory s.history i.arguments)) _
  | clear hkey =>
    refine .inr ⟨(responderFor_pseudo ?_).symm, fun heq => nomatch heq⟩
    rcases hkey with hkey | hkey <;> rw [hkey] <;> decide
  | echo hkey =>
    exact .inr ⟨(responderFor_pseudo (by rw [hkey]; decide)).symm, fun heq => nomatch heq⟩
  | help hkey hcolumns =>
    exact .inr ⟨(responderFor_pseudo (by rw [hkey]; decide)).symm, help_ne_commandNotFound _ _ _⟩
  | uncountedHelp hkey hcolumns =>
    exact .inr ⟨(responderFor_pseudo (by rw [hkey]; decide)).symm, nofun⟩
  | notFound => exact .inl ⟨rfl, rfl⟩

/-- An ending tells who has answered. -/
theorem AnsweredBy.unique {responder responder' : Responder} {e : Ending}
    (h : AnsweredBy host s around i responder e)
    (h' : AnsweredBy host s around i responder' e) : responder = responder' := by
  rcases h.told with ⟨hfirst, he⟩ | ⟨hfirst, hne⟩
  · rcases h'.told with ⟨hsecond, -⟩ | ⟨-, hne⟩
    · rw [hfirst, hsecond]
    · exact absurd he hne
  · rcases h'.told with ⟨-, he⟩ | ⟨hsecond, -⟩
    · exact absurd he hne
    · rw [hfirst, hsecond]

theorem exists_answeredBy_command {c : Command} (hc : Registry.handler? i.name = some c) :
    ∃ responder, AnsweredBy host s around i responder
      (s.runCommand host around c i.arguments).2 := by
  have hcolumns : s.columnsFor host around c i.arguments =
      if s.needsColumns around c i.arguments then (s.measure host around).2
      else .ok usualColumns := rfl
  rw [runCommand]
  split
  case isFalse hneeds =>
    rw [if_neg hneeds] at hcolumns
    exact ⟨.handler, .handler hc hcolumns⟩
  case isTrue hneeds =>
    rw [if_pos hneeds] at hcolumns
    cases hmeasure : s.measure host around with
    | mk s' measured =>
      rw [hmeasure] at hcolumns
      cases measured with
      | error why => exact ⟨.handler, .uncounted hc hcolumns⟩
      | ok columns => exact ⟨.handler, .handler hc hcolumns⟩

theorem exists_answeredBy_help (hkey : i.key = "help".toList) :
    ∃ responder, AnsweredBy host s around i responder
      (s.runHelp host around i.arguments).2 := by
  refine ⟨.dispatcher, ?_⟩
  cases hmeasure : (s.measure host around).2 with
  | error why =>
    have hrun : (s.runHelp host around i.arguments).2 = .crashed why := by
      rw [runHelp, show s.measure host around = ((s.measure host around).1, .error why) from
        Prod.ext rfl hmeasure]
    rw [hrun]
    exact .uncountedHelp hkey hmeasure
  | ok columns =>
    have hrun : s.runHelp host around i.arguments =
        (s.measure host around).1.help host around columns i.arguments := by
      rw [runHelp, show s.measure host around = ((s.measure host around).1, .ok columns) from
        Prod.ext rfl hmeasure]
    rw [hrun]
    exact .help hkey hmeasure

/-- Whatever a reserved name is typed with, it is answered by one of the three. -/
theorem existsUnique_answeredBy (hreserved : Registry.reserves i.name = true) (host : Host)
    (s : Session) (around : Surroundings) :
    ∃! responder, AnsweredBy host s around i responder (s.dispatch host around i).2 := by
  obtain ⟨responder, h⟩ :
      ∃ responder, AnsweredBy host s around i responder (s.dispatch host around i).2 := by
    have hleads := Dispatch.leads_ofKey i.key
    rw [dispatch]
    generalize Dispatch.ofKey i.key = d at hleads
    cases hleads with
    | command h =>
      rw [Line.Invocation.key, Registry.handler?_lower] at h
      exact exists_answeredBy_command h
    | history h => exact ⟨_, .history h⟩
    | clear h => exact ⟨_, .clear h⟩
    | echo h => exact ⟨_, .echo h⟩
    | help h => exact exists_answeredBy_help h
    | notFound => exact ⟨_, .notFound⟩
    | program h =>
      rw [Line.Invocation.key, Registry.reserves_lower, hreserved] at h
      cases h
  exact ⟨responder, h, fun _ h' => h'.unique h⟩

/-- A name is reserved by the tables, in whatever case it is typed, if the list of names has it in
lowercase and if the help describes it; the list has each name once and in order, however the table
gives its own. The program that a name stands for is started if the name is not reserved; else all
that is started is asked something, and looked up by another name, and one of the three answers. -/
theorem reserved_everywhere (typed : Text) :
    Registry.names.Pairwise (· < ·) ∧
      (∀ ks : List Text, ks.Perm Registry.keys → Registry.namesFrom ks = Registry.names) ∧
      (Registry.reserves typed = true ↔ Text.lower typed ∈ Registry.names) ∧
      ((Help.entry? typed).isSome ↔ Text.lower typed ∈ Registry.names) ∧
      Registry.reserves (Text.lower typed) = Registry.reserves typed ∧
      Registry.handler? (Text.lower typed) = Registry.handler? typed ∧
      Help.entry? (Text.lower typed) = Help.entry? typed ∧
      ∀ (s : Session) (around : Surroundings) (arguments : List Text),
        let i : Line.Invocation := { name := typed, arguments }
        (∀ program, s.programFor around typed = some program →
          ((∃ t, Starts (fun host => s.dispatch host around i) t (s.started around i program)) ↔
            Registry.reserves typed = false)) ∧
        (Registry.reserves typed = true →
          (∀ t l, Starts (fun host => s.dispatch host around i) t l →
            Inquiry s around (Dispatch.ofKey i.key) arguments t l) ∧
          ∀ host, ∃! responder, AnsweredBy host s around i responder
            (s.dispatch host around i).2) := by
  have hnames := (Registry.reserves_iff typed).trans Registry.mem_names_iff.symm
  refine ⟨Registry.names_increasing, fun _ => Registry.namesFrom_of_perm, hnames,
    (Help.isSome_entry?_iff typed).trans hnames, Registry.reserves_lower typed,
    Registry.handler?_lower typed, Help.entry?_lower typed, ?_⟩
  intro s around arguments i
  refine ⟨fun program hprogram => exists_starts_started_iff hprogram, fun hreserved => ⟨?_, ?_⟩⟩
  · exact fun t l hstarts => inquiry_of_starts hreserved hstarts
  · exact fun host => existsUnique_answeredBy (i := i) hreserved host s around

/-- Help on a name, where the terminal tells its columns. -/
theorem dispatch_help {given : Text} {columns : Nat} (hkey : Dispatch.ofKey i.key = .help)
    (hgiven : i.arguments.head? = some given) (hcolumns : around.columns = some columns)
    (host : Host) :
    s.dispatch host around i = ((s.helpFor host around columns given).1,
      .answered (s.helpFor host around columns given).2) := by
  rw [s.dispatch_eq host around hkey, answer, runHelp, measure_of_columns _ _ _ hcolumns]
  dsimp only
  rw [help, hgiven]

/-- Help in capitals, with a program of its name and with one that it is asked about. -/
theorem reserved_everywhere_help :
    Registry.reserves "HELP" = true ∧
      (withProgram "help").programFor searchingRoot "HELP" = some "/help".toList ∧
      (¬∃ t, Starts (fun host => (withProgram "help").dispatch host searchingRoot
          { name := "HELP".toList, arguments := ["tool".toList] }) t
        ((withProgram "help").started searchingRoot
          { name := "HELP".toList, arguments := ["tool".toList] } "/help")) ∧
      (∃ t l, Starts (fun host => (withProgram "tool").dispatch host searchingRoot
          { name := "HELP".toList, arguments := ["tool".toList] }) t l ∧
        l.program = "/tool".toList ∧
        Inquiry (withProgram "tool") searchingRoot .help ["tool".toList] t l) ∧
      ∃! responder, AnsweredBy allTelling (withProgram "tool") searchingRoot
        { name := "HELP".toList, arguments := ["tool".toList] }
        responder ((withProgram "tool").dispatch allTelling searchingRoot
          { name := "HELP".toList, arguments := ["tool".toList] }).2 := by
  have hreserved : Registry.reserves "HELP" = true := by decide +kernel
  have hkey : Dispatch.ofKey (Text.lower "HELP") = .help := by decide +kernel
  have hmissing : locate (withProgram "help").tree searchingRoot.environment
      (withProgram "help").cwd "HELP" = none :=
    locate_withProgram (by decide) (by decide)
  have hfolded : locateFolded (withProgram "help").tree searchingRoot.environment
      (withProgram "help").cwd "HELP" = some "/help".toList :=
    locateFolded_withProgram (by decide) (by decide) (by decide) (by decide)
  have hprogram : (withProgram "help").programFor searchingRoot "HELP" = some "/help".toList := by
    rw [programFor, hmissing, hfolded, Option.none_or]
  have hlocate : locate (withProgram "tool").tree searchingRoot.environment
      (withProgram "tool").cwd (subject "tool") = some "/tool".toList :=
    locate_withProgram (by decide) (by decide)
  have hconsults : (withProgram "tool").Consults searchingRoot 80 "tool" "/tool" :=
    (consults_iff (by decide)).mpr hlocate
  obtain ⟨t, l, ⟨host, host', hagree, hne⟩, htool, -⟩ := hconsults
  have hstarts : Starts (fun host => (withProgram "tool").dispatch host searchingRoot
      { name := "HELP".toList, arguments := ["tool".toList] }) t l := by
    refine ⟨host, host', hagree, fun heq => hne ?_⟩
    dsimp only at heq
    rw [dispatch_help (i := { name := "HELP".toList, arguments := ["tool".toList] }) hkey rfl rfl,
      dispatch_help (i := { name := "HELP".toList, arguments := ["tool".toList] }) hkey rfl rfl,
      Prod.mk.injEq, Ending.answered.injEq] at heq
    exact Prod.ext heq.1 heq.2
  obtain ⟨-, -, -, -, -, -, -, hdispatch⟩ := reserved_everywhere "HELP"
  obtain ⟨hfree, -⟩ := hdispatch (withProgram "help") searchingRoot ["tool".toList]
  obtain ⟨-, hcommand⟩ := hdispatch (withProgram "tool") searchingRoot ["tool".toList]
  obtain ⟨hasked, hanswered⟩ := hcommand hreserved
  have hinquiry := hasked t l hstarts
  rw [Line.Invocation.key, hkey] at hinquiry
  refine ⟨hreserved, hprogram, fun hstarted => ?_, ⟨t, l, hstarts, htool, hinquiry⟩,
    hanswered allTelling⟩
  rw [hfree _ hprogram, hreserved] at hstarted
  cases hstarted

end Session

end LineShell

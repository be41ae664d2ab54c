import LineShell.Proofs.Session.Consulted
import LineShell.Proofs.Session.Execute

/-! What reserved names ask programs. A listing that has to know the columns of the terminal asks
for them, and help asks a program about itself or the manual about it: a program that is looked up
under another name than the reserved one. -/

namespace LineShell.Session

open Program

/-- What may be asked of a program, when the files are as in a tree, by what a reserved name is
dispatched to. -/
inductive Inquiry (s : Session) (around : Surroundings) (d : Dispatch) (arguments : List Text)
    (t : FileTree) : Launch → Prop
  /-- The columns or the lines of the terminal. -/
  | measuring (hd : d = .command .ls ∨ d = .help) {what : Text}
    (hwhat : what = "cols".toList ∨ what = "lines".toList) :
    Inquiry s around d arguments t (measuring around what)
  /-- A program that help is given the name of: its own help. -/
  | itself (hd : d = .help) {given : Text} (hgiven : arguments.head? = some given)
    (hfree : Registry.reserves (subject given) = false) {p : Path}
    (hp : locate t around.environment s.cwd (subject given) = some p) :
    Inquiry s around d arguments t (s.probing around p question)
  /-- The manual, about such a name. -/
  | manual (hd : d = .help) {given : Text} (hgiven : arguments.head? = some given)
    (hfree : Registry.reserves (subject given) = false) {p : Path}
    (hp : locate t around.environment s.cwd "man" = some p) :
    Inquiry s around d arguments t (s.probing around p (manualOn (subject given)))

variable {host host' : Host} {s s' : Session} {around : Surroundings} {d : Dispatch}
  {arguments : List Text} {t : FileTree} {l : Launch}

/-- What a command may ask depends on the session by no more than the directory. -/
theorem Inquiry.of_cwd (hcwd : s'.cwd = s.cwd) (h : Inquiry s' around d arguments t l) :
    Inquiry s around d arguments t l := by
  cases h with
  | measuring hd hwhat => exact .measuring hd hwhat
  | itself hd hgiven hfree hp =>
    rw [probing_eq hcwd]
    exact .itself hd hgiven hfree (hcwd ▸ hp)
  | manual hd hgiven hfree hp =>
    rw [probing_eq hcwd]
    exact .manual hd hgiven hfree (hcwd ▸ hp)

theorem ask_eq {what : Text} (h : host s.tree (measuring around what) =
      host' s.tree (measuring around what)) : s.ask host around what = s.ask host' around what := by
  rw [ask, ask, h]

/-- Two systems that answer alike how large the terminal is. -/
theorem measure_eq (h : ∀ t what, what = "cols".toList ∨ what = "lines".toList →
      host t (measuring around what) = host' t (measuring around what)) :
    s.measure host around = s.measure host' around := by
  rw [measure, measure]
  cases around.columns with
  | some n => rfl
  | none =>
    rw [ask_eq (h s.tree "cols".toList (.inl rfl))]
    generalize s.ask host' around "cols" = answer
    obtain ⟨s', why | columns⟩ := answer
    · rfl
    · dsimp only
      rw [ask_eq (h s'.tree "lines".toList (.inr rfl))]

section Agreeing

theorem helpFor_eq {given : Text} (hgiven : arguments.head? = some given)
    (hagree : ∀ t l, Inquiry s around .help arguments t l → host t l = host' t l)
    (columns : Nat) :
    s.helpFor host around columns given = s.helpFor host' around columns given := by
  cases hfree : Registry.reserves (subject given) with
  | false =>
    have hdescribe : s.describe host around (subject given) =
        s.describe host' around (subject given) :=
      describe_eq (fun p hp => hagree _ _ (.itself rfl hgiven hfree hp))
        fun t p hp => hagree _ _ (.manual rfl hgiven hfree hp)
    rw [helpFor_free hfree, helpFor_free hfree, hdescribe]
  | true =>
    obtain ⟨entry, hentry⟩ := Option.isSome_iff_exists.mp ((Help.isSome_entry?_iff _).mpr hfree)
    rw [subject] at hentry
    rw [helpFor, helpFor, hentry]

theorem runHelp_eq (hagree : ∀ t l, Inquiry s around .help arguments t l → host t l = host' t l) :
    s.runHelp host around arguments = s.runHelp host' around arguments := by
  have hcwd := (s.alike_measure host' around).cwd
  rw [runHelp, runHelp, measure_eq fun t what hwhat => hagree t _ (.measuring (.inr rfl) hwhat)]
  generalize s.measure host' around = answer at hcwd
  obtain ⟨s', why | columns⟩ := answer
  · rfl
  · dsimp only
    rw [help, help]
    cases hgiven : arguments.head? with
    | none => rfl
    | some given =>
      dsimp only
      rw [helpFor_eq hgiven fun t l h => hagree t l (h.of_cwd hcwd)]

theorem runCommand_eq {c : Command}
    (hagree : ∀ t l, Inquiry s around (.command c) arguments t l → host t l = host' t l) :
    s.runCommand host around c arguments = s.runCommand host' around c arguments := by
  rw [runCommand, runCommand]
  split
  case isTrue hneeds =>
    have hc : Dispatch.command c = .command .ls := by
      cases c with
      | ls => rfl
      | _ => cases hneeds
    rw [measure_eq fun t what hwhat => hagree t _ (.measuring (.inl hc) hwhat)]
  case isFalse => rfl

end Agreeing

/-- All that a reserved name starts is asked something. -/
theorem inquiry_of_starts {i : Line.Invocation} (hreserved : Registry.reserves i.name = true)
    (h : Starts (fun host => s.dispatch host around i) t l) :
    Inquiry s around (Dispatch.ofKey i.key) i.arguments t l := by
  by_contra hno
  obtain ⟨host, host', hagree, hne⟩ := h
  refine hne ?_
  have hasked (t' : FileTree) (l' : Launch)
      (hinquiry : Inquiry s around (Dispatch.ofKey i.key) i.arguments t' l') :
      host t' l' = host' t' l' := by
    refine hagree t' l' ?_
    rintro ⟨rfl, rfl⟩
    exact hno hinquiry
  dsimp only [dispatch]
  cases hkey : Dispatch.ofKey i.key with
  | command c => exact runCommand_eq (hkey ▸ hasked)
  | help => exact runHelp_eq (hkey ▸ hasked)
  | program =>
    rw [Line.Invocation.ofKey_eq_program_iff, hreserved] at hkey
    cases hkey
  | history | clear | echo | notFound => rfl

section LastLetter

variable {typed : Text} {p : Path} {last : Char}

theorem suffix_join {name : Path} (h : '/' ∉ name) (base : Path) :
    name <:+ Path.join base name := by
  have hrelative : Path.isAbsolute name = false := by
    rw [Path.isAbsolute, decide_eq_false_iff_not]
    exact fun hhead => h (List.mem_of_head? hhead)
  rw [Path.join, if_neg (by simp [hrelative])]
  split
  case isTrue => exact List.suffix_append base name
  case isFalse => exact ⟨base ++ ['/'], by rw [List.append_assoc]; rfl⟩

/-- A program that is found by a name without slashes has the name at the end of its path. -/
theorem suffix_of_locate {v : Variables} {cwd : Path} (hslash : '/' ∉ typed)
    (h : locate t v cwd typed = some p) : typed <:+ p := by
  have hmem := List.mem_of_find?_eq_some h
  rw [candidates, if_neg (by simpa using hslash)] at hmem
  split at hmem
  case h_1 => cases hmem
  case h_2 =>
    obtain ⟨base, -, rfl⟩ := List.mem_map.mp hmem
    exact suffix_join hslash _

theorem mem_of_getLast?_of_suffix {a b : Text} (h : a <:+ b) (hne : a ≠ [])
    (hlast : b.getLast? = some last) : last ∈ a := by
  obtain ⟨front, rfl⟩ := h
  rw [List.getLast?_append_of_ne_nil _ hne] at hlast
  exact List.mem_of_getLast? hlast

theorem reserved_isWord : ∀ name ∈ Registry.reserved, name ≠ [] ∧ '/' ∉ name := by
  decide

/-- The last letter of the program that a reserved name would stand for is one of the name's. -/
theorem mem_lower_of_programFor (hreserved : Registry.reserves typed = true)
    (hprogram : s.programFor around typed = some p) (hlast : p.getLast? = some last)
    (hsmall : Text.IsSmall last) : last ∈ Text.lower typed := by
  obtain ⟨hne, hslash⟩ := reserved_isWord _ ((Registry.reserves_iff typed).mp hreserved)
  cases hlocate : locate s.tree around.environment s.cwd typed with
  | some q =>
    have hslash' : '/' ∉ typed := by
      have hsmall : Text.IsSmall '/' := by decide
      exact fun hmem => hslash (hsmall.mem_lower hmem)
    have hne' : typed ≠ [] := by
      rintro rfl
      exact hne rfl
    rw [programFor, hlocate, Option.some_or] at hprogram
    have hsuffix := suffix_of_locate hslash' (hlocate.trans hprogram)
    exact hsmall.mem_lower (mem_of_getLast?_of_suffix hsuffix hne' hlast)
  | none =>
    rw [programFor, hlocate, Option.none_or, locateFolded] at hprogram
    split at hprogram
    case isTrue => cases hprogram
    case isFalse =>
      exact mem_of_getLast?_of_suffix (suffix_of_locate hslash hprogram) hne hlast

end LastLetter

/-- What a reserved name asks is never the program that the name would stand for, started as a free
name starts it. -/
theorem not_inquiry_started {i : Line.Invocation} {program : Path}
    (hreserved : Registry.reserves i.name = true)
    (hprogram : s.programFor around i.name = some program) :
    ¬Inquiry s around (Dispatch.ofKey i.key) i.arguments t (s.started around i program) := by
  generalize hl : s.started around i program = l
  have hleads := Dispatch.leads_ofKey i.key
  intro hinquiry
  cases hinquiry with
  | measuring hd hwhat =>
    have hlast : program.getLast? = some 't' := by
      rw [show program = measurer from congrArg Launch.program hl]
      rfl
    have hmem : 't' ∈ i.key := mem_lower_of_programFor hreserved hprogram hlast (by decide)
    rcases hd with hd | hd <;> rw [hd] at hleads
    · have hname := hleads.eq_ls_or_dir
      rw [i.lower_key] at hname
      rcases hname with hname | hname <;> rw [hname] at hmem <;> exact absurd hmem (by decide)
    · rw [hleads.eq_help] at hmem
      exact absurd hmem (by decide)
  | itself hd hgiven hfree hp =>
    have harguments : i.arguments = question := congrArg Launch.arguments hl
    rw [harguments, question, List.head?_cons, Option.some.injEq] at hgiven
    rw [← hgiven] at hfree
    exact absurd hfree (by decide)
  | @manual hd given hgiven hfree p hp =>
    have hprogram' : program = p := congrArg Launch.program hl
    have hlast : program.getLast? = some 'n' := by
      obtain ⟨front, hfront⟩ := suffix_of_locate (by decide) hp
      rw [hprogram', ← hfront, List.getLast?_append_of_ne_nil _ (by decide)]
      rfl
    have hmem : 'n' ∈ i.key := mem_lower_of_programFor hreserved hprogram hlast (by decide)
    rw [hd] at hleads
    rw [hleads.eq_help] at hmem
    exact absurd hmem (by decide)

/-- The program that a name stands for is started just where the name is not reserved. -/
theorem exists_starts_started_iff {i : Line.Invocation} {program : Path}
    (hprogram : s.programFor around i.name = some program) :
    (∃ t, Starts (fun host => s.dispatch host around i) t (s.started around i program)) ↔
      Registry.reserves i.name = false := by
  constructor
  · rintro ⟨t, hstarts⟩
    rw [Bool.eq_false_iff]
    exact fun hreserved =>
      not_inquiry_started hreserved hprogram (inquiry_of_starts hreserved hstarts)
  · intro hfree
    have hkey := Line.Invocation.ofKey_eq_program_iff.mpr hfree
    exact ⟨s.tree, (starts_dispatch_iff hkey hprogram).mpr ⟨rfl, rfl⟩⟩

end LineShell.Session

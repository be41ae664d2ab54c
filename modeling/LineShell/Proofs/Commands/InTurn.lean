import LineShell.Commands.Run
import LineShell.Proofs.Commands.Visits
import LineShell.Proofs.Files.Timeless

/-! A command with many operands is the sequence of the commands with one of them each. These may be
given at any times, since what a command does to a tree is the same whatever times are in it. -/

namespace LineShell.Commands

open FileTree (timeless)

section Each

variable {σ α β γ ε : Type}

theorem each_map_items (step : σ → β → σ × Except ε γ) (f : α → β) (s : σ) (items : List α) :
    each step s (items.map f) = each (fun s a => step s (f a)) s items := by
  induction items generalizing s with
  | nil => rfl
  | cons a items ih => simp only [List.map_cons, each, ih]

theorem each_cons_of_error {step : σ → α → σ × Except ε β} {s s' : σ} {a : α} {e : ε}
    (h : step s a = (s', .error e)) (rest : List α) : each step s (a :: rest) = (s', .error e) := by
  rw [each, h]

theorem each_cons_of_ok {step : σ → α → σ × Except ε β} {s s' : σ} {a : α} {b : β}
    (h : step s a = (s', .ok b)) (rest : List α) : each step s (a :: rest) =
      ((each step s' rest).1, (each step s' rest).2.map (b :: ·)) := by
  rw [each, h]
  dsimp only
  rcases each step s' rest with ⟨s'', e | bs⟩ <;> rfl

theorem eachLine_eq (step : σ → α → σ × Answer) (s : σ) (items : List α) :
    eachLine step s items =
      ((each step s items).1, (each step s items).2.map Text.stacked) := by
  rw [eachLine]
  rcases each step s items with ⟨s', e | messages⟩ <;> rfl

theorem eachLine_singleton (step : σ → α → σ × Answer) (s : σ) (a : α) :
    eachLine step s [a] = step s a := by
  rw [eachLine_eq]
  rcases h : step s a with ⟨s', e | message⟩
  · rw [each_cons_of_error h]
    rfl
  · rw [each_cons_of_ok h]
    simp [each, Except.map, Text.stacked, Text.joined]

end Each

section Timeless

variable (now : Time) (t : FileTree)

theorem copyDir_timeless (source dest : Place) :
    copyDir 0 t.timeless source dest =
      ((copyDir now t source dest).1.timeless, (copyDir now t source dest).2) := by
  fun_induction copyDir now t source dest
  case case1 t source dest h => rw [copyDir, if_pos h]
  case case2 t source dest h t' e hdirs =>
    rw [copyDir, if_neg h, t.createDirAll_timeless dest now, hdirs]
    rfl
  case case3 t source dest h t' hdirs e hlist =>
    have hlist' : t'.timeless.list source = .error e := by rw [t'.list_timeless source, hlist]; rfl
    rw [copyDir, if_neg h, t.createDirAll_timeless dest now, hdirs]
    simp only [Prod.map, id]
    split <;> simp_all
  case case4 t source dest h t' hdirs entries hlist step t'' done heach ih |
      case5 t source dest h t' hdirs entries hlist step t'' f heach ih =>
    have hdirs' : t.timeless.createDirAll 0 dest = (t'.timeless, none) := by
      rw [t.createDirAll_timeless dest now, hdirs]
      rfl
    have hlist' : t'.timeless.list source = .ok (entries.map fun e => (e.1, e.2.timeless)) := by
      rw [t'.list_timeless source, hlist]
      rfl
    have hentry (t : FileTree) (e : Name × Node) :
        copyEntry 0 source dest t.timeless (e.1, e.2.timeless) =
          ((step t e).1.timeless, (step t e).2) := by
      simp only [copyEntry, step, Node.isDir_timeless, t.copyFile_timeless now]
      split
      case isTrue => exact ih t e
      case isFalse => cases t.copyFile now (source.entry e.1) (dest.entry e.1) <;> rfl
    rw [copyDir_of_list h hdirs' hlist', each_map_items, each_projected timeless hentry, heach]
    rfl

variable (s : Setting) (w : Workspace)

/-- A path is resolved in the same way at any time. -/
theorem resolve_timeless (typed : Text) : w.resolve { s with now := 0 } typed = w.resolve s typed :=
  rfl

theorem makeDir_timeless (typed : Text) : makeDir { s with now := 0 } w t.timeless typed =
    ((makeDir s w t typed).1.timeless, (makeDir s w t typed).2) := by
  simp only [makeDir, resolve_timeless, FileTree.isThere_timeless,
    t.createDirAll_timeless _ s.now, Prod.map, id]
  split
  · rfl
  · rcases t.createDirAll s.now (w.resolve s typed) with ⟨t', e | e⟩ <;> rfl

theorem removeDir_timeless (typed : Text) : removeDir { s with now := 0 } w t.timeless typed =
    ((removeDir s w t typed).1.timeless, (removeDir s w t typed).2) := by
  simp only [removeDir, resolve_timeless, FileTree.isThere_timeless, FileTree.isDir_timeless,
    t.removeDir_timeless, t.list_timeless]
  split_ifs
  · rfl
  · rfl
  · rcases t.list (w.resolve s typed) with e | _ | ⟨e, es⟩
    · rfl
    · simp only [Except.map, List.map_nil]
      cases t.removeDir (w.resolve s typed) <;> rfl
    · rfl

theorem touchFile_timeless (typed : Text) : touchFile { s with now := 0 } w t.timeless typed =
    ((touchFile s w t typed).1.timeless, (touchFile s w t typed).2) := by
  simp only [touchFile, resolve_timeless, FileTree.isThere_timeless, t.touch_timeless _ s.now,
    t.overwrite_timeless _ s.now]
  split
  · cases t.touch s.now (w.resolve s typed) <;> rfl
  · cases t.overwrite s.now (w.resolve s typed) [] <;> rfl

theorem remove_timeless (recursive : Bool) (typed : Text) :
    remove { s with now := 0 } w recursive t.timeless typed =
      ((remove s w recursive t typed).1.timeless, (remove s w recursive t typed).2) := by
  simp only [remove, resolve_timeless, FileTree.isDir_timeless, FileTree.isThere_timeless,
    FileTree.isLink_timeless, t.removeTree_timeless, t.unlink_timeless, Prod.map, id]
  split_ifs
  · rfl
  · rcases t.removeTree (w.resolve s typed) with ⟨t', e | e⟩ <;> rfl
  · cases t.unlink (w.resolve s typed) <;> rfl
  · rfl

theorem destination_timeless (source dest : Path) :
    destination t.timeless source dest = destination t source dest := by
  simp only [destination, FileTree.isDir_timeless]

theorem copy_timeless (recursive : Bool) (dest typed : Text) :
    copy { s with now := 0 } w recursive dest t.timeless typed =
      ((copy s w recursive dest t typed).1.timeless, (copy s w recursive dest t typed).2) := by
  simp only [copy, resolve_timeless, FileTree.isThere_timeless, FileTree.isDir_timeless,
    destination_timeless, copyDir_timeless s.now, t.copyFile_timeless s.now]
  split
  · rfl
  · cases destination t (w.resolve s typed) (w.resolve s dest) with
    | error f => rfl
    | ok place =>
      dsimp only
      split_ifs
      · rfl
      · rcases copyDir s.now t (w.resolve s typed) place with ⟨t', f | done⟩ <;> rfl
      · cases t.copyFile s.now (w.resolve s typed) place <;> rfl

theorem move_timeless (dest typed : Text) : move { s with now := 0 } w dest t.timeless typed =
    ((move s w dest t typed).1.timeless, (move s w dest t typed).2) := by
  simp only [move, resolve_timeless, FileTree.isThere_timeless, destination_timeless,
    t.rename_timeless]
  split
  · rfl
  · cases destination t (w.resolve s typed) (w.resolve s dest) with
    | error f => rfl
    | ok place =>
      dsimp only
      cases t.rename (w.resolve s typed) place <;> rfl

end Timeless

/-- The arguments that are options. -/
def flags (arguments : List Text) : List Text :=
  arguments.filter fun a => a.head? = some '-'

/-- That directories are asked for is told by the options alone. -/
theorem recursive_flags (arguments : List Text) :
    recursive (flags arguments) = recursive arguments := by
  rw [recursive, recursive, flags, List.any_filter]
  congr 1
  funext a
  rw [Bool.eq_iff_iff, Bool.and_eq_true, decide_eq_true_eq, decide_eq_true_eq,
    and_iff_right_iff_imp]
  rintro (rfl | rfl | rfl) <;> rfl

/-- What commands come to that are given one after another, each at its own time, up to the first
that fails: their messages one below another, or the failure alone. -/
def inTurn (s : Setting) (c : Command) (w : Workspace) (said : List Text) :
    List (Time × List Text) → Workspace × Ending
  | [] => (w, .answered (.success (Text.stacked said)))
  | (now, arguments) :: rest =>
    match run { s with now } c arguments w with
    | (w, .answered (.success message)) => inTurn s c w (said ++ [message]) rest
    | other => other

/-- A command that takes a step for each of its operands, but for a destination behind them. -/
structure Stepwise (c : Command) (dest : List Text)
    (step : Setting → Workspace → Bool → FileTree → Text → FileTree × Answer) : Prop where
  runs : ∀ s arguments w sources, sources ≠ [] → operands arguments = sources ++ dest →
    run s c arguments w =
      changing (w.withTree (eachLine (step s w (recursive arguments)) w.tree sources))
  timeless : ∀ s w recursive t typed, step { s with now := 0 } w recursive t.timeless typed =
    ((step s w recursive t typed).1.timeless, (step s w recursive t typed).2)
  elsewhere : ∀ s w t, step s { w with tree := t } = step s w

namespace Stepwise

variable {c : Command} {dest : List Text}
  {step : Setting → Workspace → Bool → FileTree → Text → FileTree × Answer}

/-- On trees that differ in their times a step does the same at any times. -/
theorem same (h : Stepwise c dest step) {t t' : FileTree} (ht : t.timeless = t'.timeless)
    (s : Setting) (w : Workspace) (recursive : Bool) (now : Time) (typed : Text) :
    (step s w recursive t typed).1.timeless =
        (step { s with now } w recursive t' typed).1.timeless ∧
      (step s w recursive t typed).2 = (step { s with now } w recursive t' typed).2 := by
  have hs := h.timeless s w recursive t typed
  rw [ht, h.timeless { s with now } w recursive t' typed, Prod.mk.injEq] at hs
  exact ⟨hs.1.symm, hs.2.symm⟩

/-- The commands in turn come to what the steps come to, also from a tree with other times. -/
theorem inTurn_eq (h : Stepwise c dest step) {arguments sources : List Text}
    {commands : List (Time × List Text)}
    (hcommands : List.Forall₂ (fun typed command => operands command.2 = typed :: dest ∧
      flags command.2 = flags arguments) sources commands) (s : Setting) (w : Workspace)
    {t t' : FileTree} (ht : t.timeless = t'.timeless) (said : List Text) :
    ∃ t'', inTurn s c { w with tree := t' } said commands =
        ({ w with tree := t'' }, .answered (Answer.outcome
          ((each (step s w (recursive arguments)) t sources).2.map fun messages =>
            Text.stacked (said ++ messages)))) ∧
      (each (step s w (recursive arguments)) t sources).1.timeless = t''.timeless := by
  induction hcommands generalizing t t' said with
  | nil =>
    refine ⟨t', ?_, ht⟩
    simp only [inTurn, each, Except.map, List.append_nil, Answer.outcome]
  | @cons typed command sources commands hcommand _ ih =>
    obtain ⟨now, single⟩ := command
    obtain ⟨hoperands, hflags⟩ := hcommand
    obtain ⟨htree, hanswer⟩ := h.same ht s w (recursive arguments) now typed
    have hrun := h.runs { s with now } single { w with tree := t' } [typed] (by simp) hoperands
    rw [h.elsewhere, eachLine_singleton, ← recursive_flags single, hflags, recursive_flags] at hrun
    rw [inTurn, hrun]
    rcases hs : step s w (recursive arguments) t typed with ⟨t₁, r⟩
    rcases hs' : step { s with now } w (recursive arguments) t' typed with ⟨t₁', r'⟩
    rw [hs, hs'] at htree hanswer
    obtain rfl : r = r' := hanswer
    cases r with
    | error f =>
      rw [each_cons_of_error hs]
      exact ⟨t₁', rfl, htree⟩
    | ok message =>
      rw [each_cons_of_ok hs]
      obtain ⟨t'', hrest, hrestTree⟩ := ih htree (said ++ [message])
      refine ⟨t'', Eq.trans hrest ?_, hrestTree⟩
      cases (each (step s w (recursive arguments)) t₁ sources).2 <;> simp [Except.map]

theorem in_turn (h : Stepwise c dest step) {arguments sources : List Text}
    (hsources : sources ≠ []) (hoperands : operands arguments = sources ++ dest)
    {commands : List (Time × List Text)}
    (hcommands : List.Forall₂ (fun typed command => operands command.2 = typed :: dest ∧
      flags command.2 = flags arguments) sources commands) (s : Setting) (w : Workspace) :
    ∃ w₁ w₂ o, run s c arguments w = (w₁, .answered o) ∧
      inTurn s c w [] commands = (w₂, .answered o) ∧
      w₁.cwd = w.cwd ∧ w₂.cwd = w.cwd ∧ w₁.tree.timeless = w₂.tree.timeless := by
  obtain ⟨t', hturn, htree⟩ := h.inTurn_eq hcommands s w (t := w.tree) rfl []
  have hrun := h.runs s arguments w sources hsources hoperands
  rw [eachLine_eq] at hrun
  exact ⟨_, _, _, hrun, hturn, rfl, rfl, htree⟩

end Stepwise

theorem told_timeless {step step' : FileTree → Text → FileTree × Except Failure Path}
    (h : ∀ t typed, step' t.timeless typed = ((step t typed).1.timeless, (step t typed).2))
    (done : Text) (t : FileTree) (typed : Text) :
    told done step' t.timeless typed =
      ((told done step t typed).1.timeless, (told done step t typed).2) := by
  rw [told, told, h]
  rcases step t typed with ⟨t', f | p⟩ <;> rfl

/-- A command that works through all its operands, and complains where there are none. -/
theorem Stepwise.of_operands {c : Command} {missing : Answer}
    {step : Setting → Workspace → Bool → FileTree → Text → FileTree × Answer}
    (hrun : ∀ s arguments w, run s c arguments w = changing (match operands arguments with
      | [] => (w, missing)
      | items => w.withTree (eachLine (step s w (recursive arguments)) w.tree items)))
    (htimeless : ∀ s w recursive t typed, step { s with now := 0 } w recursive t.timeless typed =
      ((step s w recursive t typed).1.timeless, (step s w recursive t typed).2))
    (helsewhere : ∀ s w t, step s { w with tree := t } = step s w) : Stepwise c [] step where
  runs := by
    intro s arguments w sources hsources hoperands
    rw [List.append_nil] at hoperands
    obtain ⟨first, rest, rfl⟩ := List.exists_cons_of_ne_nil hsources
    rw [hrun, hoperands]
  timeless := htimeless
  elsewhere := helsewhere

theorem stepwise_mkdir :
    Stepwise .mkdir [] fun s w _ => told "Directory created: " (makeDir s w) :=
  .of_operands (fun _ _ _ => rfl)
    (fun s w _ => told_timeless (fun t typed => makeDir_timeless t s w typed) _) fun _ _ _ => rfl

theorem stepwise_rmdir :
    Stepwise .rmdir [] fun s w _ => told "Directory removed: " (removeDir s w) :=
  .of_operands (fun _ _ _ => rfl)
    (fun s w _ => told_timeless (fun t typed => removeDir_timeless t s w typed) _) fun _ _ _ => rfl

theorem stepwise_touch : Stepwise .touch [] fun s w _ => touchFile s w :=
  .of_operands (fun _ _ _ => rfl) (fun s w _ t => touchFile_timeless t s w) fun _ _ _ => rfl

theorem stepwise_rm : Stepwise .rm [] remove :=
  .of_operands (fun _ _ _ => rfl) (fun s w recursive t => remove_timeless t s w recursive)
    fun _ _ _ => rfl

theorem sourcesAndDest_eq {arguments sources : List Text} {dest : Text} (hsources : sources ≠ [])
    (h : operands arguments = sources ++ [dest]) :
    sourcesAndDest arguments = some (sources, dest) := by
  obtain ⟨others, last, rfl⟩ := (List.eq_nil_or_concat' sources).resolve_left hsources
  simp [sourcesAndDest, h]

theorem stepwise_cp (dest : Text) :
    Stepwise .cp [dest] fun s w recursive => copy s w recursive dest where
  runs := by
    intro s arguments w sources hsources hoperands
    rw [run, cp, sourcesAndDest_eq hsources hoperands]
  timeless := fun s w recursive t typed => copy_timeless t s w recursive dest typed
  elsewhere := fun _ _ _ => rfl

theorem stepwise_mv (dest : Text) : Stepwise .mv [dest] fun s w _ => move s w dest where
  runs := by
    intro s arguments w sources hsources hoperands
    rw [run, mv, sourcesAndDest_eq hsources hoperands]
  timeless := fun s w _ t typed => move_timeless t s w dest typed
  elsewhere := fun _ _ _ => rfl

/-- The operands of a command that stand behind those it works through one after another. -/
def Trailing : Command → List Text → Prop
  | .mkdir, dest | .rmdir, dest | .touch, dest | .rm, dest => dest = []
  | .cp, dest | .mv, dest => ∃ d, dest = [d]
  | _, _ => False

/-- A command with many operands says and does what the commands with one of them each do, one
after the other at whatever times, with the same options and the same destination: if all of them
succeed, their messages one below another, and otherwise what the first that fails says, with
nothing done behind it. The files it leaves are the same, but for the times in them. -/
theorem operands_in_turn {c : Command} {arguments sources dest : List Text}
    (hdest : Trailing c dest) (hsources : sources ≠ [])
    (hoperands : operands arguments = sources ++ dest) {commands : List (Time × List Text)}
    (hcommands : List.Forall₂ (fun typed command => operands command.2 = typed :: dest ∧
      flags command.2 = flags arguments) sources commands) (s : Setting) (w : Workspace) :
    ∃ w₁ w₂ o, run s c arguments w = (w₁, .answered o) ∧
      inTurn s c w [] commands = (w₂, .answered o) ∧
      w₁.cwd = w.cwd ∧ w₂.cwd = w.cwd ∧ w₁.tree.timeless = w₂.tree.timeless := by
  cases c with
  | mkdir => subst hdest; exact stepwise_mkdir.in_turn hsources hoperands hcommands s w
  | rmdir => subst hdest; exact stepwise_rmdir.in_turn hsources hoperands hcommands s w
  | touch => subst hdest; exact stepwise_touch.in_turn hsources hoperands hcommands s w
  | rm => subst hdest; exact stepwise_rm.in_turn hsources hoperands hcommands s w
  | cp =>
    obtain ⟨d, rfl⟩ := hdest
    exact (stepwise_cp d).in_turn hsources hoperands hcommands s w
  | mv =>
    obtain ⟨d, rfl⟩ := hdest
    exact (stepwise_mv d).in_turn hsources hoperands hcommands s w
  | _ => exact hdest.elim

/-- Two files are copied with an option in front, against two copies made later. -/
theorem operands_in_turn_later :
    Trailing .cp [['d']] ∧ operands [['-', 'r'], ['f'], ['g'], ['d']] = [['f'], ['g']] ++ [['d']] ∧
      List.Forall₂ (fun typed (command : Time × List Text) =>
          operands command.2 = typed :: [['d']] ∧
            flags command.2 = flags [['-', 'r'], ['f'], ['g'], ['d']])
        [['f'], ['g']] [(2, [['-', 'r'], ['f'], ['d']]), (3, [['g'], ['d'], ['-', 'r']])] ∧
      ∃ w₁ w₂ o,
        run plainSetting .cp [['-', 'r'], ['f'], ['g'], ['d']] withSingle = (w₁, .answered o) ∧
        inTurn plainSetting .cp withSingle []
            [(2, [['-', 'r'], ['f'], ['d']]), (3, [['g'], ['d'], ['-', 'r']])] =
          (w₂, .answered o) ∧
        w₁.cwd = withSingle.cwd ∧ w₂.cwd = withSingle.cwd ∧
        w₁.tree.timeless = w₂.tree.timeless := by
  have hdest : Trailing .cp [['d']] := ⟨_, rfl⟩
  have hoperands : operands [['-', 'r'], ['f'], ['g'], ['d']] = [['f'], ['g']] ++ [['d']] := by
    decide
  have hcommands : List.Forall₂ (fun typed (command : Time × List Text) =>
      operands command.2 = typed :: [['d']] ∧
        flags command.2 = flags [['-', 'r'], ['f'], ['g'], ['d']])
      [['f'], ['g']] [(2, [['-', 'r'], ['f'], ['d']]), (3, [['g'], ['d'], ['-', 'r']])] :=
    .cons ⟨by decide, by decide⟩ (.cons ⟨by decide, by decide⟩ .nil)
  exact ⟨hdest, hoperands, hcommands,
    operands_in_turn hdest (by decide) hoperands hcommands plainSetting withSingle⟩

end LineShell.Commands

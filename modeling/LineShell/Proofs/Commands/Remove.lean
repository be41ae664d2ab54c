import LineShell.Commands.Files
import LineShell.Proofs.Commands.Copy
import LineShell.Proofs.Files.Removal

/-! What `rm` leaves of a tree. What the operands name is gone where the command succeeds, and
nothing else is gone in any case. -/

namespace LineShell.Commands

open FileTree (Removed)

variable {t : FileTree}

/-- One operand takes away what it stands for, at most. -/
theorem remove_removed (hnamed : t.root.Named) (s : Setting) (w : Workspace) (recursive : Bool)
    (typed : Text) :
    Removed (t.Taken recursive (w.resolve s typed)) t (remove s w recursive t typed).1 ∧
      ∀ message, (remove s w recursive t typed).2 = .ok message →
        (remove s w recursive t typed).1.node false (w.resolve s typed) =
          .error (.os .noEntry) := by
  rw [remove]
  dsimp only
  split
  case isTrue =>
    split
    case isTrue => exact ⟨.refl hnamed, by rintro _ ⟨⟩⟩
    case isFalse hrecursive =>
      obtain ⟨hremoved, hmissing⟩ := FileTree.removeTree_removed hnamed (w.resolve s typed)
      rw [show recursive = true by simpa using hrecursive]
      split
      case h_1 hnone =>
        rw [hnone] at hremoved hmissing
        exact ⟨hremoved, fun _ _ => hmissing rfl⟩
      case h_2 hsome =>
        rw [hsome] at hremoved
        exact ⟨hremoved, by rintro _ ⟨⟩⟩
  case isFalse =>
    split
    case isTrue =>
      split
      case h_1 hunlink =>
        obtain ⟨l, n, hfind, hdir, hremoved, hmissing⟩ := FileTree.unlink_removed hnamed hunlink
        refine ⟨hremoved.mono fun k _ _ hk => ⟨l, n, hfind, ?_⟩, fun _ _ => hmissing⟩
        rwa [hdir]
      case h_2 => exact ⟨.refl hnamed, by rintro _ ⟨⟩⟩
    case isFalse => exact ⟨.refl hnamed, by rintro _ ⟨⟩⟩

/-- One operand after the other takes away what it stands for, at most. -/
theorem eachLine_remove_removed (hnamed : t.root.Named) (s : Setting) (w : Workspace)
    (recursive : Bool) (items : List Text) :
    Removed (fun l => ∃ typed ∈ items, t.Taken recursive (w.resolve s typed) l) t
        (eachLine (remove s w recursive) t items).1 ∧
      ∀ message, (eachLine (remove s w recursive) t items).2 = .ok message →
        ∀ typed ∈ items, (eachLine (remove s w recursive) t items).1.node false
          (w.resolve s typed) = .error (.os .noEntry) := by
  let gone (l : Location) : Prop := ∃ typed ∈ items, t.Taken recursive (w.resolve s typed) l
  have hrun : (∀ t' messages, each (remove s w recursive) t items = (t', .ok messages) →
        Removed gone t t' ∧
          ∀ typed ∈ items, t'.node false (w.resolve s typed) = .error (.os .noEntry)) ∧
      ∀ t' e, each (remove s w recursive) t items = (t', .error e) → Removed gone t t' := by
    refine each_invariant (fun done t' => Removed gone t t' ∧
      ∀ typed ∈ done, t'.node false (w.resolve s typed) = .error (.os .noEntry))
      (fun t' _ => Removed gone t t') ?_ ⟨.refl hnamed, by simp⟩
    intro done typed rest t₁ hitems ⟨hkept, hmissing⟩
    obtain ⟨hstep, hgone⟩ := remove_removed hkept.named s w recursive typed
    have hnext : Removed gone t (remove s w recursive t₁ typed).1 :=
      hkept.trans (hstep.mono fun l _ _ hl => ⟨typed, by simp [hitems], hl.mono hkept⟩)
    refine ⟨fun t₂ message hok => ?_, fun t₂ e herror => ?_⟩
    · rw [hok] at hnext hstep hgone
      refine ⟨hnext, fun other hother => ?_⟩
      rcases List.mem_append.mp hother with hbefore | hhere
      · exact FileTree.node_missing_within hstep.within (hmissing other hbefore)
      · rw [List.mem_singleton.mp hhere]
        exact hgone message rfl
    · rw [herror] at hnext
      exact hnext
  rw [eachLine]
  split
  case h_1 t' _ heach =>
    obtain ⟨hremoved, hmissing⟩ := hrun.1 t' _ heach
    exact ⟨hremoved, fun _ _ => hmissing⟩
  case h_2 t' e heach => exact ⟨hrun.2 t' e heach, by rintro _ ⟨⟩⟩

/-- `rm` removes what its operands name and nothing else. If it succeeds there is nothing left at
their paths, not even a link. Whether it does or not, what no operand stands for is in its place:
whatever is not named by one of them and in no directory named by one of them, and any directory
where those are not asked for. -/
theorem rm_removes_named_only {w : Workspace} (hnamed : w.tree.root.Named) (s : Setting)
    (arguments : List Text) :
    ∃ t' answer, rm s arguments w = ({ w with tree := t' }, answer) ∧
      (∀ message, answer = .ok message → ∀ typed ∈ operands arguments,
        t'.node false (w.resolve s typed) = .error (.os .noEntry)) ∧
      t'.files = w.tree.files ∧ t'.root.Within w.tree.root ∧
      (∀ l n, w.tree.root.at? l = some n →
        (∀ typed ∈ operands arguments,
          ¬ w.tree.Taken (recursive arguments) (w.resolve s typed) l) →
        ∃ n', t'.root.at? l = some n' ∧ n.Alike n') ∧
      (recursive arguments = false → ∀ l d, w.tree.root.at? l = some d → d.isDir = true →
        ∃ d', t'.root.at? l = some d' ∧ d.Alike d') := by
  obtain ⟨t', answer, hrm, hremoved, hmissing⟩ : ∃ t' answer,
      rm s arguments w = ({ w with tree := t' }, answer) ∧
        Removed (fun l => ∃ typed ∈ operands arguments,
          w.tree.Taken (recursive arguments) (w.resolve s typed) l) w.tree t' ∧
        ∀ message, answer = .ok message → ∀ typed ∈ operands arguments,
          t'.node false (w.resolve s typed) = .error (.os .noEntry) := by
    rw [rm]
    split
    case h_1 => exact ⟨w.tree, _, rfl, .refl hnamed, by rintro _ ⟨⟩⟩
    case h_2 =>
      exact ⟨_, _, rfl, eachLine_remove_removed hnamed s w (recursive arguments) _⟩
  refine ⟨t', answer, hrm, hmissing, hremoved.files, hremoved.within, ?_, ?_⟩
  · intro l n hn hl
    exact hremoved.kept l n hn fun ⟨typed, htyped, htaken⟩ => hl typed htyped htaken
  · intro hrecursive l d hd hdir
    refine hremoved.kept l d hd ?_
    rintro ⟨typed, -, l', n, hfind, hl⟩
    -- without the flag nothing stands for a directory
    split_ifs at hl with hn
    · rw [hrecursive] at hl
      exact absurd hl.1 (by decide)
    · subst hl
      rw [show w.tree.root.at? l = some n from FileTree.find_holds hfind] at hd
      cases hd
      exact hn hdir

/-- A directory with a file in it, and a link to the directory. -/
def linkedDirectory : Workspace where
  cwd := ['/']
  tree :=
    { root := .dir 0o755 0
        [(Name.ofText ['d'], .dir 0o755 0 [(Name.ofText ['f'], .file 0)]),
          (Name.ofText ['l'], .link ['d'] 0)]
      files := [] }

theorem rm_removes_named_only_link :
    linkedDirectory.tree.root.Named ∧
      ∃ t', rm plainSetting [['-', 'r'], ['l']] linkedDirectory =
          ({ linkedDirectory with tree := t' }, .ok ("Directory removed: " ++ ['/', 'l'])) ∧
        t'.node false (['/', 'l'] : Path) = .error (.os .noEntry) ∧
        ∃ n, t'.root.at? [Name.ofText ['f'], Name.ofText ['d']] = some n ∧
          Node.Alike (.file 0) n := by
  have hnamed : linkedDirectory.tree.root.Named :=
    .dir (by decide) (by
      simpa using ⟨.dir (by decide) (by simpa using Node.named_of_leaf rfl),
        Node.named_of_leaf rfl⟩)
  have hpass : FileTree.Passable linkedDirectory.tree.root [] := ⟨_, rfl, rfl, rfl⟩
  have hlink : linkedDirectory.tree.find false (['/', 'l'] : Path) =
      .ok (.entry [Name.ofText ['l']] (.link ['d'] 0)) :=
    (FileTree.find_eq_ok_iff _ _ _ _).mpr
      ⟨by decide, .root hpass (.link hpass (by decide) rfl rfl)⟩
  have hdirectory : linkedDirectory.tree.find true (['/', 'l'] : Path) =
      .ok (.entry [Name.ofText ['d']] (.dir 0o755 0 [(Name.ofText ['f'], .file 0)])) :=
    (FileTree.find_eq_ok_iff _ _ _ _).mpr ⟨by decide, .root hpass
      (.follow hpass (by decide) rfl (fun _ => rfl) (.enter hpass (by decide) rfl rfl
        (.arrived rfl)))⟩
  have hresolve : linkedDirectory.resolve plainSetting ['l'] = ['/', 'l'] := by decide
  have hunlink : linkedDirectory.tree.unlink (['/', 'l'] : Path) =
      .ok (linkedDirectory.tree.changeDir [] (·.erase (Name.ofText ['l']))) := by
    rw [FileTree.unlink, FileTree.removable, hlink]
    rfl
  have hdir : linkedDirectory.tree.isDir (['/', 'l'] : Path) = true := by
    rw [FileTree.isDir, FileTree.node, hdirectory]
    rfl
  have hremove : remove plainSetting linkedDirectory true linkedDirectory.tree ['l'] =
      (linkedDirectory.tree.changeDir [] (·.erase (Name.ofText ['l'])),
        .ok ("Directory removed: " ++ ['/', 'l'])) := by
    rw [remove, hresolve, hdir, FileTree.removeTree, hlink, hunlink]
    rfl
  obtain ⟨t', answer, hrm, hmissing, -, -, hkept, -⟩ :=
    rm_removes_named_only hnamed plainSetting [['-', 'r'], ['l']]
  have hoperands : operands [['-', 'r'], ['l']] = [['l']] := by decide
  have hanswer : rm plainSetting [['-', 'r'], ['l']] linkedDirectory =
      linkedDirectory.withTree (linkedDirectory.tree.changeDir [] (·.erase (Name.ofText ['l'])),
        .ok ("Directory removed: " ++ ['/', 'l'])) := by
    rw [rm, hoperands, show recursive [['-', 'r'], ['l']] = true by decide]
    simp only [eachLine, each, hremove]
    rfl
  obtain rfl : answer = .ok ("Directory removed: " ++ ['/', 'l']) :=
    congrArg Prod.snd (hrm.symm.trans hanswer)
  rw [hoperands] at hmissing hkept
  refine ⟨hnamed, t', hrm, ?_, ?_⟩
  · exact hresolve ▸ hmissing _ rfl ['l'] List.mem_cons_self
  · refine hkept _ _ rfl fun typed htyped => ?_
    rw [List.mem_singleton.mp htyped, hresolve]
    rintro ⟨l, n, hfind, hl⟩
    rw [hlink] at hfind
    cases hfind
    revert hl
    decide

end LineShell.Commands

import LineShell.Commands.Copy
import LineShell.Proofs.Files.Copy

/-! What `cp` leaves of the files that it is given. A command that succeeds has made a run of
copies, and the contents of every file afterwards are told by that run. -/

namespace LineShell.Commands

open FileTree (Copied Ran createDirAll_ran copyFile_ran)

section Each

variable {σ α β γ ε : Type}

/-- Steps whose results are told in more detail come to the same states. -/
theorem each_detailed {step : σ → α → σ × Except ε γ} (detailed : σ → α → σ × Except ε β)
    (f : β → γ) (h : ∀ s a, step s a = ((detailed s a).1, (detailed s a).2.map f)) (s : σ)
    (items : List α) :
    each step s items =
      ((each detailed s items).1, (each detailed s items).2.map (List.map f)) := by
  induction items generalizing s with
  | nil => rfl
  | cons a rest ih =>
    rw [each, each, h]
    obtain ⟨s', r⟩ := detailed s a
    cases r with
    | error e => rfl
    | ok b =>
      simp only [Except.map]
      rw [ih]
      obtain ⟨s'', r⟩ := each detailed s' rest
      cases r <;> rfl

/-- A run over some items that comes to its end begins with the first one. -/
theorem exists_of_each_cons {step : σ → α → σ × Except ε β} {s s' : σ} {a : α} {rest : List α}
    {bs : List β} (h : each step s (a :: rest) = (s', .ok bs)) :
    ∃ s₁ b later, step s a = (s₁, .ok b) ∧ each step s₁ rest = (s', .ok later) ∧
      bs = b :: later := by
  rw [each] at h
  split at h
  case h_1 => cases h
  case h_2 s₁ b hstep =>
    split at h
    case h_1 => cases h
    case h_2 s₂ later hrest =>
      cases h
      exact ⟨s₁, b, later, hstep, hrest, rfl⟩

/-- What each step keeps or leaves behind, the run over all items does. -/
theorem each_invariant {step : σ → α → σ × Except ε β} {items : List α} (kept : List α → σ → Prop)
    (left : σ → ε → Prop) (hstep : ∀ done a rest s, items = done ++ a :: rest → kept done s →
      (∀ s' b, step s a = (s', .ok b) → kept (done ++ [a]) s') ∧
        ∀ s' e, step s a = (s', .error e) → left s' e) {s : σ} (h : kept [] s) :
    (∀ s' bs, each step s items = (s', .ok bs) → kept items s') ∧
      ∀ s' e, each step s items = (s', .error e) → left s' e := by
  suffices hrun : ∀ rest done s, items = done ++ rest → kept done s →
      (∀ s' bs, each step s rest = (s', .ok bs) → kept items s') ∧
        ∀ s' e, each step s rest = (s', .error e) → left s' e from hrun items [] s rfl h
  intro rest
  induction rest with
  | nil =>
    intro done s hitems hkept
    rw [List.append_nil] at hitems
    exact ⟨by rintro _ _ ⟨⟩; exact hitems ▸ hkept, by rintro _ _ ⟨⟩⟩
  | cons a rest ih =>
    intro done s hitems hkept
    obtain ⟨hok, herror⟩ := hstep done a rest s hitems hkept
    rw [each]
    cases hs : step s a with
    | mk s₁ r =>
      cases r with
      | error e => exact ⟨by rintro _ _ ⟨⟩, by rintro _ _ ⟨⟩; exact herror s₁ e hs⟩
      | ok b =>
        obtain ⟨hok₁, herror₁⟩ := ih (done ++ [a]) s₁ (by simp [hitems]) (hok s₁ b hs)
        simp only
        cases hrest : each step s₁ rest with
        | mk s₂ r =>
          cases r with
          | error e => exact ⟨by rintro _ _ ⟨⟩, by rintro _ _ ⟨⟩; exact herror₁ s₂ e hrest⟩
          | ok bs => exact ⟨by rintro _ _ ⟨⟩; exact hok₁ s₂ bs hrest, by rintro _ _ ⟨⟩⟩

end Each

/-- Copies a directory, and tells the copies of files that this came to. -/
def copyDirLog (now : Time) (t : FileTree) (source dest : Place) :
    FileTree × Except Failure (List Copied) :=
  if Place.below source dest then
    (t, .error (Complaint.cannot .cp (.copyInto source.shown) : Failure))
  else match t.createDirAll now dest with
  | (t, some e) => (t, .error (.io (.cannot .cp (.create dest.shown)) e))
  | (t, none) =>
    match h : t.list source with
    | .error e => (t, .error (.io (.cannot .cp (.read source.shown)) e))
    | .ok entries =>
      let copyEntry (t : FileTree) (e : Name × Node) : FileTree × Except Failure (List Copied) :=
        if e.2.isDir then
          have := Place.room_entry_lt h e.1
          copyDirLog now t (source.entry e.1) (dest.entry e.1)
        else match t.copyFile now (source.entry e.1) (dest.entry e.1) with
          | .ok t' => (t', .ok (t.copied? now (source.entry e.1) (dest.entry e.1)).toList)
          | .error e' => (t, .error (.io (.cannot .cp (.copy (source.entry e.1).shown)) e'))
      match each copyEntry t entries with
      | (t, .ok logs) => (t, .ok logs.flatten)
      | (t, .error f) => (t, .error f)
termination_by source.room

/-- Copies an entry of one directory into another one. -/
def copyEntry (now : Time) (source dest : Place) (t : FileTree) (e : Name × Node) :
    FileTree × Except Failure Unit :=
  if e.2.isDir then copyDir now t (source.entry e.1) (dest.entry e.1)
  else match t.copyFile now (source.entry e.1) (dest.entry e.1) with
    | .ok t => (t, .ok ())
    | .error e' => (t, .error (.io (.cannot .cp (.copy (source.entry e.1).shown)) e'))

/-- What the copying of a directory comes to once the directory for the copy is there. -/
theorem copyDir_of_list {now : Time} {t t' : FileTree} {source dest : Place}
    {entries : List (Name × Node)} (hbelow : ¬ Place.below source dest = true)
    (hdirs : t.createDirAll now dest = (t', none)) (hlist : t'.list source = .ok entries) :
    copyDir now t source dest =
      ((each (copyEntry now source dest) t' entries).1,
        (each (copyEntry now source dest) t' entries).2.map fun _ => ()) := by
  rw [copyDir, if_neg hbelow, hdirs]
  simp only
  split
  case h_1 e he => rw [hlist] at he; cases he
  case h_2 entries' he =>
    rw [hlist] at he
    cases he
    split
    case h_1 t'' done heach =>
      rw [show each (copyEntry now source dest) t' entries = (t'', .ok done) from heach]
      rfl
    case h_2 t'' f heach =>
      rw [show each (copyEntry now source dest) t' entries = (t'', .error f) from heach]
      rfl

/-- The copying of directories is the copying that tells what it copies, with that left out. -/
theorem copyDir_eq (now : Time) (t : FileTree) (source dest : Place) :
    copyDir now t source dest =
      ((copyDirLog now t source dest).1, (copyDirLog now t source dest).2.map fun _ => ()) := by
  fun_induction copyDirLog now t source dest
  case case1 h => rw [copyDir, if_pos h]; rfl
  case case2 h t' e hdirs => rw [copyDir, if_neg h, hdirs]; rfl
  case case3 h t' hdirs e hlist =>
    rw [copyDir, if_neg h, hdirs]
    simp only
    split <;> simp_all [Except.map]
  case case4 t source dest h t' hdirs entries hlist detailed t'' logs heach ih |
      case5 t source dest h t' hdirs entries hlist detailed t'' f heach ih =>
    have hentry : ∀ t e, copyEntry now source dest t e =
        ((detailed t e).1, (detailed t e).2.map fun _ => ()) := by
      intro t e
      simp only [copyEntry, detailed]
      split
      case isTrue => exact ih t e
      case isFalse => cases t.copyFile now (source.entry e.1) (dest.entry e.1) <;> rfl
    rw [copyDir_of_list h hdirs hlist, each_detailed detailed _ hentry, heach]
    rfl

/-- Runs of steps are one run. -/
theorem each_ran {α ε : Type} {step : FileTree → α → FileTree × Except ε (List Copied)}
    (h : ∀ t a t' log, step t a = (t', .ok log) → Ran t t' log) {t t' : FileTree} {items : List α}
    {logs : List (List Copied)} (heach : each step t items = (t', .ok logs)) :
    Ran t t' logs.flatten := by
  induction items generalizing t logs with
  | nil => cases heach; exact .refl _
  | cons a rest ih =>
    obtain ⟨t₁, log, later, hstep, hrest, rfl⟩ := exists_of_each_cons heach
    exact (h t a t₁ log hstep).trans (ih hrest)

theorem copyDirLog_ran {now : Time} {t t' : FileTree} {source dest : Place} {log : List Copied}
    (h : copyDirLog now t source dest = (t', .ok log)) : Ran t t' log := by
  fun_induction copyDirLog now t source dest generalizing t' log
  case case1 | case2 | case3 | case5 => cases h
  case case4 t source dest hbelow t₁ hdirs entries hlist detailed t₂ logs heach ih =>
    cases h
    have hmade : Ran t t₁ [] := by
      have hran := createDirAll_ran t now dest
      rwa [hdirs] at hran
    refine hmade.trans (each_ran ?_ heach)
    intro t e t' log hentry
    simp only [detailed] at hentry
    split at hentry
    case isTrue => exact ih t e hentry
    case isFalse =>
      split at hentry
      case h_2 => cases hentry
      case h_1 hcopy =>
        obtain ⟨c, hc, -, hran, -⟩ := copyFile_ran hcopy
        cases hentry
        rw [hc]
        exact hran

/-- What is told of one source: its copy, and the copies of files that this came to. -/
inductive Report where
  | file (source dest : Path) (log : List Copied)
  | directory (source dest : Path) (log : List Copied)

namespace Report

def line : Report → Text
  | file source dest _ => "File copied: " ++ source ++ " -> " ++ dest
  | directory source dest _ => "Directory copied: " ++ source ++ " -> " ++ dest

def log : Report → List Copied
  | file _ _ log => log
  | directory _ _ log => log

end Report

/-- Copies one source, and reports what this came to. -/
def copyReport (s : Setting) (w : Workspace) (recursive : Bool) (destTyped : Text) (t : FileTree)
    (typed : Text) : FileTree × Except Failure Report :=
  let source := w.resolve s typed
  let trouble (x : Trouble) : FileTree × Except Failure Report :=
    (t, .error (Complaint.trouble .cp source x : Failure))
  if !t.isThere source then trouble .nothingThere
  else match destination t source (w.resolve s destTyped) with
  | .error f => (t, .error f)
  | .ok dest =>
    if t.isDir source then
      if !recursive then trouble (.directory ("cp -r " ++ typed ++ " " ++ destTyped))
      else match copyDirLog s.now t source dest with
        | (t, .ok log) => (t, .ok (.directory source dest log))
        | (t, .error f) => (t, .error f)
    else match t.copyFile s.now source dest with
      | .ok t' => (t', .ok (.file source dest (t.copied? s.now source dest).toList))
      | .error e => (t, .error (.io (.cannot .cp (.copyTo source dest)) e))

theorem copy_eq (s : Setting) (w : Workspace) (recursive : Bool) (destTyped : Text) (t : FileTree)
    (typed : Text) :
    copy s w recursive destTyped t typed =
      ((copyReport s w recursive destTyped t typed).1,
        (copyReport s w recursive destTyped t typed).2.map Report.line) := by
  simp only [copy, copyReport]
  split
  case isTrue => rfl
  case isFalse =>
    cases destination t (w.resolve s typed) (w.resolve s destTyped) with
    | error f => rfl
    | ok dest =>
      simp only
      split_ifs
      · rfl
      · rw [copyDir_eq]
        obtain ⟨t', r⟩ := copyDirLog s.now t (w.resolve s typed) dest
        cases r <;> rfl
      · cases t.copyFile s.now (w.resolve s typed) dest <;> rfl

/-- A copy that is reported of a file: it was made, and the destination leads to what it went to,
which can be read. -/
def Report.Done (t : FileTree) (dest : Path) (log : List Copied) (c : Copied) : Prop :=
  log = [c] ∧ t.Lands dest c.dest ∧ ∀ b, c.dest = some b → t.grants .read (.file b) = true

theorem Report.Done.ran {t t' : FileTree} {dest : Path} {log xs : List Copied} {c : Copied}
    (h : Report.Done t dest log c) (hran : Ran t t' xs) : Report.Done t' dest log c :=
  ⟨h.1, h.2.1.grown hran.within, fun b hb => hran.readable b (h.2.2 b hb)⟩

theorem copyReport_ran {s : Setting} {w : Workspace} {recursive : Bool} {destTyped typed : Text}
    {t t' : FileTree} {r : Report} (h : copyReport s w recursive destTyped t typed = (t', .ok r)) :
    Ran t t' r.log ∧ ∀ source dest log, r = .file source dest log → source = w.resolve s typed ∧
      ∃ c, Report.Done t' dest log c ∧ t.node true source = .ok (.file c.source) := by
  simp only [copyReport] at h
  split at h
  case isTrue => cases h
  case isFalse =>
    split at h
    case h_1 => cases h
    case h_2 dest hdest =>
      split at h
      case isTrue =>
        split at h
        case isTrue => cases h
        case isFalse =>
          split at h
          case h_2 => cases h
          case h_1 hlog =>
            cases h
            exact ⟨copyDirLog_ran hlog, by rintro _ _ _ ⟨⟩⟩
      case isFalse =>
        split at h
        case h_2 => cases h
        case h_1 hcopy =>
          obtain ⟨c, hc, hnode, hran, hlands, hread⟩ := copyFile_ran hcopy
          cases h
          rw [hc]
          refine ⟨hran, ?_⟩
          rintro _ _ _ ⟨⟩
          exact ⟨rfl, c, ⟨rfl, hlands, hread⟩, hnode⟩

/-- Reports of one source after another tell a run. What a file is called before the run it is
called when it is copied. -/
theorem each_copyReport_ran {s : Setting} {w : Workspace} {recursive : Bool} {destTyped : Text}
    {t t' : FileTree} {sources : List Text} {reports : List Report}
    (h : each (copyReport s w recursive destTyped) t sources = (t', .ok reports)) :
    Ran t t' (reports.flatMap Report.log) ∧ ∀ source dest log,
      Report.file source dest log ∈ reports → (∃ typed ∈ sources, source = w.resolve s typed) ∧
        ∃ c, Report.Done t' dest log c ∧
          ∀ id, t.node true source = .ok (.file id) → id = c.source := by
  induction sources generalizing t reports with
  | nil => cases h; exact ⟨.refl _, by simp⟩
  | cons typed rest ih =>
    obtain ⟨t₁, r, later, hr, hrest, rfl⟩ := exists_of_each_cons h
    obtain ⟨hran, hfile⟩ := copyReport_ran hr
    obtain ⟨hrans, hfiles⟩ := ih hrest
    refine ⟨hran.trans hrans, ?_⟩
    intro source dest log hmem
    rcases List.mem_cons.mp hmem with hhead | htail
    · obtain ⟨hsource, c, hdone, hnode⟩ := hfile source dest log hhead.symm
      refine ⟨⟨typed, by simp, hsource⟩, c, hdone.ran hrans, fun id hid => ?_⟩
      rw [hnode] at hid
      cases hid
      rfl
    · obtain ⟨⟨typed', hmem', hsource⟩, c, hdone, hnode⟩ := hfiles source dest log htail
      exact ⟨⟨typed', by simp [hmem'], hsource⟩, c, hdone,
        fun id hid => hnode id (FileTree.node_grown hran.within hid rfl)⟩

/-- A regular file that a source names, or one that lies below a source. -/
def IsSource (s : Setting) (w : Workspace) (sources : List Text) (l : Location) (id : Nat) : Prop :=
  w.tree.root.at? l = some (.file id) ∧
    ∃ typed ∈ sources, ∃ base n, w.tree.find true (w.resolve s typed) = .ok (.entry base n) ∧
      base <:+ l

/-- Nothing is lost by a copying: the files that it was made of are there with what they held, and
wherever a file was copied to is what was copied. -/
structure KeepsData (s : Setting) (w : Workspace) (sources : List Text) (reports : List Report)
    (t : FileTree) : Prop where
  sources : ∀ l id, IsSource s w sources l id →
    t.root.at? l = some (.file id) ∧ t.held id = w.tree.held id
  copies : ∀ source dest log, Report.file source dest log ∈ reports →
    ∃ id, w.tree.node true source = .ok (.file id) ∧ t.read dest = .ok (w.tree.held id)

/-- Told by the copies alone: what arrives in each file of the sources is what it held, and what
arrives where a file was copied to is what that file held. -/
structure Undisturbed (s : Setting) (w : Workspace) (sources : List Text) (reports : List Report) :
    Prop where
  sources : ∀ l id, IsSource s w sources l id →
    w.tree.arrived (reports.flatMap Report.log) id = w.tree.held id
  copies : ∀ source dest log, Report.file source dest log ∈ reports →
    ∃ c, log = [c] ∧ w.tree.node true source = .ok (.file c.source) ∧
      c.dest.elim [] (w.tree.arrived (reports.flatMap Report.log)) = w.tree.held c.source

/-- No file of the sources is copied to, none is made a copy of two files, and what is reported as
a copy of a file was made of a file that was there, and not for a device. -/
structure Separate (s : Setting) (w : Workspace) (sources : List Text) (reports : List Report) :
    Prop where
  sources : ∀ l id, IsSource s w sources l id → ∀ c ∈ reports.flatMap Report.log, c.dest ≠ some id
  single : ∀ c ∈ reports.flatMap Report.log, ∀ d ∈ reports.flatMap Report.log,
    c.dest = d.dest → c.source = d.source
  copies : ∀ source dest log, Report.file source dest log ∈ reports →
    (∃ id, w.tree.node true source = .ok (.file id)) ∧ ∀ c ∈ log, c.dest ≠ none

/-- The reports of a `cp` that succeeds. -/
theorem cp_eq_ok {s : Setting} {arguments : List Text} {w w' : Workspace} {text : Text}
    (h : cp s arguments w = (w', .ok text)) :
    ∃ sources dest reports, sourcesAndDest arguments = some (sources, dest) ∧
      each (copyReport s w (recursive arguments) dest) w.tree sources = (w'.tree, .ok reports) ∧
      text = Text.stacked (reports.map Report.line) := by
  rw [cp] at h
  split at h
  case h_1 => cases h
  case h_2 sources dest hargs =>
    rw [eachLine, each_detailed _ _ (copy_eq s w (recursive arguments) dest)] at h
    cases heach : each (copyReport s w (recursive arguments) dest) w.tree sources with
    | mk t r =>
      rw [heach] at h
      cases r with
      | error f => cases h
      | ok reports =>
        cases h
        exact ⟨sources, dest, reports, hargs, heach, rfl⟩

private theorem keepsData_iff {s : Setting} {w : Workspace} {recursive : Bool} {destTyped : Text}
    {t' : FileTree} {sources : List Text} {reports : List Report}
    (heach : each (copyReport s w recursive destTyped) w.tree sources = (t', .ok reports)) :
    KeepsData s w sources reports t' ↔ Undisturbed s w sources reports := by
  obtain ⟨hran, hfiles⟩ := each_copyReport_ran heach
  constructor
  · intro hkeeps
    refine ⟨fun l id hid => (hran.held id).symm.trans (hkeeps.sources l id hid).2, ?_⟩
    intro source dest log hmem
    obtain ⟨-, c, ⟨hlog, hlands, hread⟩, hnode⟩ := hfiles source dest log hmem
    obtain ⟨id, hid, hdata⟩ := hkeeps.copies source dest log hmem
    obtain rfl := hnode id hid
    rw [hlands.read hread] at hdata
    refine ⟨c, hlog, hid, ?_⟩
    cases hdest : c.dest with
    | none => rw [hdest] at hdata; exact Except.ok.inj hdata
    | some b => rw [hdest] at hdata; exact (hran.held b).symm.trans (Except.ok.inj hdata)
  · intro hkept
    refine ⟨fun l id hid => ⟨hran.within.at?_eq hid.1 rfl, ?_⟩, ?_⟩
    · rw [hran.held, hkept.sources l id hid]
    · intro source dest log hmem
      obtain ⟨-, c, ⟨hlog, hlands, hread⟩, -⟩ := hfiles source dest log hmem
      obtain ⟨c', hlog', hid, hdata⟩ := hkept.copies source dest log hmem
      obtain rfl : c = c' := by
        rw [hlog] at hlog'
        exact List.cons.inj hlog' |>.1
      refine ⟨c.source, hid, ?_⟩
      rw [hlands.read hread, ← hdata]
      cases c.dest with
      | none => rfl
      | some b => exact congrArg Except.ok (hran.held b)

private theorem Separate.undisturbed {s : Setting} {w : Workspace} {recursive : Bool}
    {destTyped : Text} {t' : FileTree} {sources : List Text} {reports : List Report}
    (heach : each (copyReport s w recursive destTyped) w.tree sources = (t', .ok reports))
    (h : Separate s w sources reports) : Undisturbed s w sources reports := by
  refine ⟨fun l id hid => FileTree.arrived_untouched (h.sources l id hid), ?_⟩
  intro source dest log hmem
  obtain ⟨⟨typed, htyped, rfl⟩, c, ⟨rfl, -, -⟩, hnode⟩ :=
    (each_copyReport_ran heach).2 source dest log hmem
  obtain ⟨⟨id, hid⟩, hdest⟩ := h.copies _ dest _ hmem
  obtain rfl := hnode id hid
  have hc : c ∈ reports.flatMap Report.log := List.mem_flatMap.mpr ⟨_, hmem, by simp [Report.log]⟩
  obtain ⟨l, hl⟩ := (FileTree.node_eq_ok_iff _ _ _ _).mp hid
  have hsource : IsSource s w sources l c.source :=
    ⟨FileTree.find_holds hl, typed, htyped, l, _, hl, List.suffix_refl l⟩
  obtain ⟨b, hb⟩ := Option.ne_none_iff_exists'.mp (hdest c (by simp))
  refine ⟨c, rfl, hid, ?_⟩
  rw [hb]
  exact FileTree.arrived_copied hc hb (fun d hd hdb => h.single d hd c hc (hdb.trans hb.symm))
    (h.sources l c.source hsource)

/-- A `cp` that succeeds keeps the data exactly where the copies that it is made of do: what a file
holds in the end is what one file held before, traced back through them, or nothing if it was
copied onto itself. So it does where no file of the sources is copied to, and none twice. -/
theorem cp_keepsData_iff {s : Setting} {arguments : List Text} {w w' : Workspace} {text : Text}
    (h : cp s arguments w = (w', .ok text)) :
    ∃ sources dest reports, sourcesAndDest arguments = some (sources, dest) ∧
      each (copyReport s w (recursive arguments) dest) w.tree sources = (w'.tree, .ok reports) ∧
      text = Text.stacked (reports.map Report.line) ∧
      (∀ id, w'.tree.held id = w.tree.arrived (reports.flatMap Report.log) id) ∧
      (KeepsData s w sources reports w'.tree ↔ Undisturbed s w sources reports) ∧
      (Separate s w sources reports → KeepsData s w sources reports w'.tree) := by
  obtain ⟨sources, dest, reports, hargs, heach, htext⟩ := cp_eq_ok h
  have hiff := keepsData_iff heach
  exact ⟨sources, dest, reports, hargs, heach, htext, (each_copyReport_ran heach).1.held, hiff,
    fun hseparate => hiff.mpr (hseparate.undisturbed heach)⟩

theorem copy_file {s : Setting} {w : Workspace} {recursive : Bool} {destTyped typed : Text}
    {t : FileTree} {id : Nat} (hsource : t.node true (w.resolve s typed) = .ok (.file id))
    (hdest : t.isDir (w.resolve s destTyped) = false) {t' : FileTree}
    (hcopy : t.copyFile s.now (w.resolve s typed) (w.resolve s destTyped) = .ok t') :
    copy s w recursive destTyped t typed =
      (t', .ok ("File copied: " ++ w.resolve s typed ++ " -> " ++ w.resolve s destTyped)) := by
  have hthere : t.isThere (w.resolve s typed) = true := by
    rw [FileTree.isThere, hsource]
    rfl
  have hdir : t.isDir (w.resolve s typed) = false := by
    rw [FileTree.isDir, hsource]
    rfl
  simp only [copy, hthere, destination, hdir, hdest, Bool.not_true, Bool.false_eq_true, if_false,
    hcopy]

/-- With one source and no option, `cp` is a copy of that source. -/
theorem cp_pair (s : Setting) (w : Workspace) {source dest : Text}
    (hsource : source.head? ≠ some '-') (hdest : dest.head? ≠ some '-') :
    cp s [source, dest] w = w.withTree (copy s w false dest w.tree source) := by
  have hargs : sourcesAndDest [source, dest] = some ([source], dest) := by
    simp [sourcesAndDest, operands, hsource, hdest]
  have hrecursive : recursive [source, dest] = false := by
    have hoption (t : Text) (ht : t.head? ≠ some '-') :
        ¬ (t = "-r".toList ∨ t = "-R".toList ∨ t = "--recursive".toList) := by
      rintro (rfl | rfl | rfl) <;> exact ht rfl
    simp only [recursive, List.any_cons, List.any_nil, hoption source hsource, hoption dest hdest,
      decide_false, Bool.or_false]
  rw [cp, hargs]
  simp only [eachLine, each, hrecursive]
  obtain ⟨t, r⟩ := copy s w false dest w.tree source
  cases r with
  | error f => rfl
  | ok line => simp [Text.stacked, Text.joined]

/-- The setting and the place of a command in a tree with one file. -/
def plainSetting : Setting :=
  { home := none, now := 1, zone := fun _ => 0, terminal := 80, colours := false,
    memory := fun _ => true }

def withSingle : Workspace :=
  { cwd := ['/'], tree := .single 0o644 }

/-- The tree with a copy of its file beside it. -/
def doubledSingle : FileTree :=
  { root := .dir 0o755 0 [(Name.ofText ['f'], .file 0), (Name.ofText ['g'], .file 1)],
    files := [{ bytes := Text.encode ['o', 'l', 'd'], mode := 0o644, changed := 0 },
      { bytes := Text.encode ['o', 'l', 'd'], mode := 0o644, changed := 1 }] }

private theorem cp_beside :
    cp plainSetting [['f'], ['g']] withSingle =
      ({ cwd := ['/'], tree := doubledSingle },
        .ok ("File copied: " ++ ['/', 'f'] ++ " -> " ++ ['/', 'g'])) := by
  have hfind : (FileTree.single 0o644).find true (['/', 'g'] : Path) =
      .ok (.vacant [] (Name.ofText ['g'])) := by
    have hg : FileTree.FromRoot ['/', 'g'] (Name.ofText ['g']) := by decide
    rw [FileTree.find_fromRoot (by decide) (.single 0o644) rfl hg rfl]
    rfl
  have hdir : (FileTree.single 0o644).isDir (['/', 'g'] : Path) = false := by
    rw [FileTree.isDir, FileTree.node, hfind]
    rfl
  have hcopy : (FileTree.single 0o644).copyFile plainSetting.now (['/', 'f'] : Path)
      (['/', 'g'] : Path) = .ok doubledSingle := by
    simp only [FileTree.copyFile, FileTree.single_node, FileTree.openForWriting, hfind]
    rfl
  have hf : withSingle.resolve plainSetting ['f'] = ['/', 'f'] := by decide
  have hg : withSingle.resolve plainSetting ['g'] = ['/', 'g'] := by decide
  rw [← hf, ← hg] at hcopy
  rw [cp_pair plainSetting withSingle (by decide) (by decide),
    show withSingle.tree = .single 0o644 from rfl,
    copy_file (hf ▸ FileTree.single_node 0o644) (hg ▸ hdir) hcopy, hf, hg]
  rfl

theorem cp_keepsData_beside :
    cp plainSetting [['f'], ['g']] withSingle =
        ({ cwd := ['/'], tree := doubledSingle },
          .ok ("File copied: " ++ ['/', 'f'] ++ " -> " ++ ['/', 'g'])) ∧
      ∃ sources dest reports, sourcesAndDest [['f'], ['g']] = some (sources, dest) ∧
        each (copyReport plainSetting withSingle (recursive [['f'], ['g']]) dest) withSingle.tree
          sources = (doubledSingle, .ok reports) ∧
        "File copied: " ++ ['/', 'f'] ++ " -> " ++ ['/', 'g'] =
          Text.stacked (reports.map Report.line) ∧
        (∀ id, doubledSingle.held id =
          withSingle.tree.arrived (reports.flatMap Report.log) id) ∧
        (KeepsData plainSetting withSingle sources reports doubledSingle ↔
          Undisturbed plainSetting withSingle sources reports) ∧
        (Separate plainSetting withSingle sources reports →
          KeepsData plainSetting withSingle sources reports doubledSingle) :=
  ⟨cp_beside, cp_keepsData_iff cp_beside⟩

/-- The tree with its file emptied. -/
def emptiedSingle : FileTree :=
  { FileTree.single 0o644 with files := [{ bytes := [], mode := 0o644, changed := 1 }] }

/-- A file that is copied onto itself is lost, and the command reports success. -/
theorem cp_onto_itself :
    cp plainSetting [['f'], ['f']] withSingle =
        ({ cwd := ['/'], tree := emptiedSingle },
          .ok ("File copied: " ++ ['/', 'f'] ++ " -> " ++ ['/', 'f'])) ∧
      withSingle.tree.read (['/', 'f'] : Path) = .ok (Text.encode ['o', 'l', 'd']) ∧
      emptiedSingle.read (['/', 'f'] : Path) = .ok [] := by
  have hdir : (FileTree.single 0o644).isDir (['/', 'f'] : Path) = false := by
    rw [FileTree.isDir, FileTree.single_node]
    rfl
  have hcopy : (FileTree.single 0o644).copyFile plainSetting.now (['/', 'f'] : Path)
      (['/', 'f'] : Path) = .ok emptiedSingle := by
    simp only [FileTree.copyFile, FileTree.single_node, FileTree.openForWriting,
      FileTree.single_find 0o644 true]
    rfl
  have hf : withSingle.resolve plainSetting ['f'] = ['/', 'f'] := by decide
  rw [← hf] at hcopy
  refine ⟨?_, ?_, ?_⟩
  · rw [cp_pair plainSetting withSingle (by decide) (by decide),
      show withSingle.tree = .single 0o644 from rfl,
      copy_file (hf ▸ FileTree.single_node 0o644) (hf ▸ hdir) hcopy, hf]
    rfl
  · simp only [withSingle, FileTree.read, FileTree.single_node]
    rfl
  · have hnode : emptiedSingle.node true (['/', 'f'] : Path) = .ok (.file 0) :=
      FileTree.node_grown (show (FileTree.single 0o644).root.Within emptiedSingle.root from .refl _)
        (FileTree.single_node 0o644) rfl
    simp only [FileTree.read, hnode]
    rfl

end LineShell.Commands

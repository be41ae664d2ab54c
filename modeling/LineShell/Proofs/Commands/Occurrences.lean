import LineShell.Proofs.Commands.Lines

/-! Which lines `grep` reports. A line is searched without the blanks at its end, so that a text
which ends in a blank is found only where something else stands behind it. -/

namespace LineShell

namespace Text

theorem occurs_iff (needle t : Text) : occurs needle t = true ↔ needle <:+: t := by
  induction t with
  | nil => rw [occurs, List.isEmpty_iff, List.infix_nil]
  | cons c rest ih =>
    rw [occurs, Bool.or_eq_true, ih, List.isPrefixOf_iff_prefix, List.infix_cons_iff]

/-- A text stands somewhere in another one without taking up the blanks at the end of that: it ends
in no blank itself, or something that is no blank follows. -/
def StandsIn (needle t : Text) : Prop :=
  ∃ front back, t = front ++ needle ++ back ∧ (trimEnd needle = needle ∨ trimEnd back ≠ [])

theorem infix_trimEnd_iff (needle t : Text) : needle <:+: trimEnd t ↔ StandsIn needle t := by
  constructor
  · rintro ⟨front, back, h⟩
    obtain ⟨gap, hgap, -⟩ := exists_trimEnd t
    have hend : trimEnd (needle ++ back) = needle ++ back := by
      refine trimEnd_eq_self_of_append (a := front) ?_
      rw [← List.append_assoc, h, trimEnd_trimEnd]
    refine ⟨front, back ++ gap, by rw [← List.append_assoc, h, ← hgap], ?_⟩
    cases back with
    | nil => exact .inl (by rwa [List.append_nil] at hend)
    | cons c rest =>
      right
      rw [trimEnd_append]
      split
      case isTrue =>
        rw [trimEnd_eq_self_of_append hend]
        exact List.cons_ne_nil c rest
      case isFalse => exact List.cons_ne_nil _ _
  · rintro ⟨front, back, rfl, hend⟩
    rw [trimEnd_append]
    split
    case isTrue hback =>
      have hneedle := hend.resolve_right (not_not_intro hback)
      rw [trimEnd_append, hneedle]
      split
      case isTrue hnil =>
        rw [← hneedle, hnil]
        exact List.nil_infix
      case isFalse => exact (List.suffix_append front needle).isInfix
    case isFalse => exact ⟨front, trimEnd back, rfl⟩

instance (needle t : Text) : Decidable (StandsIn needle t) :=
  decidable_of_iff _ (infix_trimEnd_iff needle t)

theorem StandsIn.isInfix {needle t : Text} (h : StandsIn needle t) : needle <:+: t := by
  obtain ⟨front, back, rfl, -⟩ := h
  exact ⟨front, back, rfl⟩

theorem length_stacked {texts : List Text} (h : texts ≠ []) :
    (stacked texts).length + 1 = (texts.map fun t => t.length + 1).sum := by
  induction texts with
  | nil => exact absurd rfl h
  | cons first rest ih =>
    cases rest with
    | nil => simp [stacked, joined]
    | cons second rest =>
      have hrest := ih (List.cons_ne_nil second rest)
      simp only [stacked, joined, List.intercalate_cons_cons, List.length_append, List.map_cons,
        List.sum_cons, List.length_cons, List.length_nil] at hrest ⊢
      omega

/-- Texts below one another tell that none of them is left out. -/
theorem eq_of_sublist_of_stacked {kept texts : List Text} (hsub : kept.Sublist texts)
    (hne : kept ≠ []) (h : stacked kept = stacked texts) : kept = texts := by
  have hsum {l m : List Text} (hlm : l.Sublist m) :
      (l.map fun t => t.length + 1).sum + m.length ≤
        (m.map fun t => t.length + 1).sum + l.length := by
    induction hlm with
    | slnil => exact Nat.le_refl _
    | cons t _ ih | cons_cons t _ ih =>
      simp only [List.map_cons, List.sum_cons, List.length_cons]
      omega
  have hkept := length_stacked hne
  have htexts := length_stacked fun hnil : texts = [] => hne (List.sublist_nil.mp (hnil ▸ hsub))
  have hcount := hsum hsub
  rw [h] at hkept
  exact hsub.eq_of_length_le (by omega)

end Text

namespace Commands

/-- The lines of a file: the text that is shown for its bytes, cut at line feeds. -/
def fileLines (bytes : Text.Bytes) : List Text :=
  Text.pieces '\n' (Text.lossy bytes)

section Report

variable {P Q : Text → Prop} [DecidablePred P] [DecidablePred Q]

/-- The lines of which something holds, each with its number; the first line is number 1. -/
def numberedLines (P : Text → Prop) [DecidablePred P] (lines : List Text) : List (Text × Nat) :=
  (lines.zipIdx 1).filter fun (line, _) => P line

/-- A line behind its number, without the blanks at its end. -/
def numberedLine (line : Text × Nat) : Text :=
  Text.decimal line.2 ++ ": " ++ Text.trimEnd line.1

/-- What is told of the lines that a text was found in. -/
def report (needle : Text) (found : List (Text × Nat)) : Text :=
  if found.isEmpty then "Text '" ++ needle ++ "' not found in file"
  else Text.stacked (found.map numberedLine)

/-- The lines that are searched are found by what stands in them without the blanks at their
ends. -/
theorem linesWith_searchedLines (needle : Text) (bytes : Text.Bytes) :
    linesWith needle (searchedLines bytes) =
      (numberedLines (Text.StandsIn needle) (fileLines bytes)).map numberedLine := by
  have hlines : searchedLines bytes = (fileLines bytes).map Text.trimEnd := by
    rw [fileLines, Text.pieces_lossy, List.map_map]
    rfl
  have hfound (line : Text) :
      Text.occurs needle (Text.trimEnd line) = decide (Text.StandsIn needle line) := by
    rw [Bool.eq_iff_iff, Text.occurs_iff, Text.infix_trimEnd_iff, decide_eq_true_iff]
  rw [linesWith, numberedLines, hlines, List.zipIdx_map, List.zipIdx_succ, List.filter_map,
    List.filter_map, List.map_map, List.map_map]
  simp only [Function.comp_def, Prod.map_fst, hfound]
  rfl

/-- A report of lines begins with a number. -/
theorem report_ne_of_ne_nil {needle : Text} {found : List (Text × Nat)} (h : found ≠ []) :
    report needle found ≠ report needle [] := by
  obtain ⟨line, rest, rfl⟩ := List.exists_cons_of_ne_nil h
  intro hsame
  obtain ⟨more, hmore⟩ := Text.prefix_joined ['\n'] (numberedLine line) (rest.map numberedLine)
  have hhead : (numberedLine line ++ more).head? = some 'T' := by
    rw [hmore]
    exact congrArg List.head? hsame
  rw [numberedLine] at hhead
  cases hdigits : Text.decimal line.2 with
  | nil =>
    rw [hdigits] at hhead
    exact absurd (Option.some.inj hhead) (by decide)
  | cons c digits =>
    rw [hdigits] at hhead
    obtain rfl : c = 'T' := Option.some.inj hhead
    have hdigit : 'T' ∈ Text.decimal line.2 := hdigits ▸ List.mem_cons_self
    exact absurd (Nat.isDigit_of_mem_toDigits (by decide) (by decide) hdigit) (by decide)

theorem numberedLines_eq_iff (hPQ : ∀ line, P line → Q line) (lines : List Text) :
    numberedLines P lines = numberedLines Q lines ↔ ∀ line ∈ lines, Q line → P line := by
  constructor
  · intro h line hline hQ
    rw [← List.zipIdx_map_fst 1 lines] at hline
    obtain ⟨numbered, hmem, rfl⟩ := List.mem_map.mp hline
    have hfound : numbered ∈ numberedLines P lines :=
      h ▸ List.mem_filter.mpr ⟨hmem, decide_eq_true hQ⟩
    exact of_decide_eq_true (List.mem_filter.mp hfound).2
  · intro h
    refine List.filter_congr fun numbered hmem => ?_
    have hline : numbered.1 ∈ lines := List.zipIdx_map_fst 1 lines ▸ List.mem_map_of_mem hmem
    exact decide_eq_decide.mpr ⟨hPQ _, h _ hline⟩

/-- A report tells which of the lines it is about. -/
theorem report_numberedLines_eq_iff (hPQ : ∀ line, P line → Q line) (needle : Text)
    (lines : List Text) :
    report needle (numberedLines P lines) = report needle (numberedLines Q lines) ↔
      ∀ line ∈ lines, Q line → P line := by
  rw [← numberedLines_eq_iff hPQ]
  refine ⟨fun h => ?_, congrArg (report needle)⟩
  have hsub : (numberedLines P lines).Sublist (numberedLines Q lines) := by
    refine List.monotone_filter_right _ fun line hline => ?_
    simpa using hPQ _ (by simpa using hline)
  by_cases hP : numberedLines P lines = []
  · by_contra hne
    rw [hP] at h hne
    exact report_ne_of_ne_nil (Ne.symm hne) h.symm
  · have hQ : numberedLines Q lines ≠ [] := fun hnil => hP (List.sublist_nil.mp (hnil ▸ hsub))
    rw [report, report, if_neg (by simpa using hP), if_neg (by simpa using hQ)] at h
    have hmap := Text.eq_of_sublist_of_stacked (hsub.map numberedLine) (by simpa using hP) h
    refine hsub.eq_of_length ?_
    simpa using congrArg List.length hmap

end Report

theorem grep_eq {s : Setting} {w : Workspace} {needle file : Text} {others : List Text}
    {target : Path} {bytes : Text.Bytes} (hfile : existingFile s w .grep file = .ok target)
    (hread : w.tree.read target = .ok bytes) :
    grep s (needle :: file :: others) w =
      .ok (report needle (numberedLines (Text.StandsIn needle) (fileLines bytes))) := by
  have hfound := linesWith_searchedLines needle bytes
  rw [grep]
  dsimp only [bind, Except.bind]
  rw [hfile]
  dsimp only
  rw [hread]
  dsimp only
  rw [hfound, report, List.isEmpty_map]

/-- What `grep` reports are the lines that the text stands in without the blanks at their ends.
These are the lines that contain it just where none of them contains it only with such blanks. -/
theorem grep_reports_containing_iff {s : Setting} {w : Workspace} {needle file : Text}
    {others : List Text} {target : Path} {bytes : Text.Bytes}
    (hfile : existingFile s w .grep file = .ok target) (hread : w.tree.read target = .ok bytes) :
    grep s (needle :: file :: others) w =
        .ok (report needle (numberedLines (Text.StandsIn needle) (fileLines bytes))) ∧
      (grep s (needle :: file :: others) w =
          .ok (report needle (numberedLines (needle <:+: ·) (fileLines bytes))) ↔
        ∀ line ∈ fileLines bytes, needle <:+: line → Text.StandsIn needle line) := by
  have hgrep : grep s (needle :: file :: others) w =
      .ok (report needle (numberedLines (Text.StandsIn needle) (fileLines bytes))) :=
    grep_eq hfile hread
  refine ⟨hgrep, ?_⟩
  rw [hgrep, Except.ok.injEq]
  exact report_numberedLines_eq_iff (fun _ h => h.isInfix) needle (fileLines bytes)

/-- A root directory with one file `f` of these bytes in it. -/
def withBytes (bytes : Text.Bytes) : Workspace :=
  { cwd := ['/'],
    tree := { FileTree.single 0o644 with files := [{ bytes, mode := 0o644, changed := 0 }] } }

theorem existingFile_withBytes (bytes : Text.Bytes) (c : Command) :
    existingFile plainSetting (withBytes bytes) c ['f'] = .ok ['/', 'f'] ∧
      (withBytes bytes).tree.read (['/', 'f'] : Path) = .ok bytes := by
  have hresolve : (withBytes bytes).resolve plainSetting ['f'] = ['/', 'f'] := by
    change Path.resolve none ['/'] ['f'] = ['/', 'f']
    decide
  have hfind : (withBytes bytes).tree.find true (['/', 'f'] : Path) =
      .ok (.entry [Name.ofText ['f']] (.file 0)) :=
    FileTree.find_congr (.single 0o644) (withBytes bytes).tree rfl (FileTree.single_find 0o644 true)
  have hnode : (withBytes bytes).tree.node true (['/', 'f'] : Path) = .ok (.file 0) :=
    (FileTree.node_eq_ok_iff _ _ _ _).mpr ⟨_, hfind⟩
  constructor
  · simp only [existingFile, hresolve, FileTree.isThere, FileTree.isFile, hnode]
    rfl
  · have hgrants : (withBytes bytes).tree.grants .read (.file 0) = true :=
      (FileTree.grants_file rfl).trans (show Access.granted 0o644 .read = true by decide)
    rw [FileTree.read, hnode]
    dsimp only
    rw [if_neg (by simp [hgrants])]
    rfl

/-- The bytes of two lines. In the first one, something follows the first of its blanks. -/
def twoLines : Text.Bytes :=
  Text.encode ['b', ' ', 'b', ' ', '\n', 'b']

theorem grep_reports_containing_twoLines :
    existingFile plainSetting (withBytes twoLines) .grep ['f'] = .ok ['/', 'f'] ∧
      (withBytes twoLines).tree.read (['/', 'f'] : Path) = .ok twoLines ∧
      numberedLines (['b', ' '] <:+: ·) (fileLines twoLines) = [(['b', ' ', 'b', ' '], 1)] ∧
      grep plainSetting [['b', ' '], ['f']] (withBytes twoLines) =
        .ok (report ['b', ' '] (numberedLines (['b', ' '] <:+: ·) (fileLines twoLines))) := by
  obtain ⟨hfile, hread⟩ := existingFile_withBytes twoLines .grep
  refine ⟨hfile, hread, by decide, ?_⟩
  have hlines : grep plainSetting (['b', ' '] :: ['f'] :: []) (withBytes twoLines) =
        .ok (report ['b', ' '] (numberedLines (['b', ' '] <:+: ·) (fileLines twoLines))) ↔
      ∀ line ∈ fileLines twoLines, ['b', ' '] <:+: line → Text.StandsIn ['b', ' '] line :=
    (grep_reports_containing_iff hfile hread).2
  exact hlines.mpr (by decide)

/-- A text that ends in a blank is not found at the end of a line. -/
theorem grep_blank_at_end :
    fileLines (Text.encode ['b', ' ', '\n']) = [['b', ' ']] ∧
      grep plainSetting [['b', ' '], ['f']] (withBytes (Text.encode ['b', ' ', '\n'])) =
        .ok "Text 'b ' not found in file" ∧
      report ['b', ' '] (numberedLines (['b', ' '] <:+: ·)
        (fileLines (Text.encode ['b', ' ', '\n']))) = "1: b" := by
  obtain ⟨hfile, hread⟩ := existingFile_withBytes (Text.encode ['b', ' ', '\n']) .grep
  refine ⟨by decide, ?_, by decide⟩
  rw [grep_eq hfile hread]
  decide

end Commands

end LineShell

import LineShell.Commands.Run
import LineShell.Proofs.Commands.Occurrences
import LineShell.Proofs.History
import LineShell.Proofs.Text.Numeral

/-! The first and the last lines of a file. The last lines are told while the file is read, by a
buffer that never holds more lines than are asked for. -/

namespace LineShell

namespace Text

/-- A text and its lines. Each line ends in a line feed, with a carriage return in front of it or
without; the last one may end with the text, unless it is empty. -/
inductive CutInto : Text → List Text → Prop
  | nothing : CutInto [] []
  | unended {line : Text} (hne : line ≠ []) (hline : '\n' ∉ line) : CutInto line [line]
  | ended {line rest : Text} {lines : List Text} (hline : '\n' ∉ line)
      (hreturn : line.getLast? ≠ some '\r') (h : CutInto rest lines) :
      CutInto (line ++ '\n' :: rest) (line :: lines)
  | returned {line rest : Text} {lines : List Text} (hline : '\n' ∉ line) (h : CutInto rest lines) :
      CutInto (line ++ '\r' :: '\n' :: rest) (line :: lines)

theorem lines_of_notMem {t : Text} (h : '\n' ∉ t) : lines t = if t = [] then [] else [t] := by
  rw [lines, List.splitOn_eq_singleton h]
  cases t with
  | nil => rfl
  | cons c t => rfl

theorem lines_cut {line : Text} (h : '\n' ∉ line) (rest : Text) :
    lines (line ++ '\n' :: rest) = dropReturn line :: lines rest := by
  have hne : rest.splitOn '\n' ≠ [] := List.splitOn_ne_nil _ _
  rw [lines, lines, splitOn_cut h, List.dropLast_cons_of_ne_nil hne,
    List.getLast?_cons_of_ne_nil hne]
  rfl

theorem dropReturn_of_getLast? {line : Text} (h : line.getLast? ≠ some '\r') :
    dropReturn line = line :=
  if_neg h

theorem dropReturn_concat (line : Text) : dropReturn (line ++ ['\r']) = line := by
  rw [dropReturn, if_pos List.getLast?_concat, List.dropLast_concat]

theorem CutInto.eq_lines {t : Text} {ls : List Text} (h : CutInto t ls) : ls = lines t := by
  induction h with
  | nothing => rfl
  | unended hne hline => rw [lines_of_notMem hline, if_neg hne]
  | ended hline hreturn _ ih => rw [lines_cut hline, dropReturn_of_getLast? hreturn, ih]
  | @returned line rest _ hline _ ih =>
    have hmore : '\n' ∉ line ++ ['\r'] := by
      rw [List.mem_append, not_or]
      exact ⟨hline, by decide⟩
    have hcut := lines_cut hmore rest
    rw [dropReturn_concat, ← ih, List.append_assoc] at hcut
    exact hcut.symm

theorem CutInto.lineFeed_notMem {t : Text} {ls : List Text} (h : CutInto t ls) :
    ∀ line ∈ ls, '\n' ∉ line := by
  induction h with
  | nothing => simp
  | unended _ hline => exact List.forall_mem_singleton.mpr hline
  | ended hline _ _ ih | returned hline _ ih => exact List.forall_mem_cons.mpr ⟨hline, ih⟩

theorem cutInto_lines (t : Text) : CutInto t (lines t) := by
  induction t using cut_induction '\n' with
  | whole line hline =>
    rw [lines_of_notMem hline]
    split
    case isTrue h =>
      rw [h]
      exact .nothing
    case isFalse h => exact .unended h hline
  | cut line rest hline ih =>
    rw [lines_cut hline]
    by_cases hreturn : line.getLast? = some '\r'
    · obtain ⟨front, rfl⟩ := List.getLast?_eq_some_iff.mp hreturn
      rw [dropReturn_concat, List.append_assoc]
      exact .returned (fun h => hline (List.mem_append_left _ h)) ih
    · rw [dropReturn_of_getLast? hreturn]
      exact .ended hline hreturn ih

/-- Every text has its lines, and no others. -/
theorem cutInto_iff {t : Text} {ls : List Text} : CutInto t ls ↔ ls = lines t :=
  ⟨CutInto.eq_lines, fun h => h ▸ cutInto_lines t⟩

variable {α : Type} {k m : Nat}

theorem take_append_latest (n : Nat) (items : List α) :
    items.take n ++ latest (items.length - n) items = items := by
  by_cases h : n ≤ items.length
  · rw [latest, Nat.sub_sub_self h, List.take_append_drop]
  · rw [latest, List.take_of_length_le (by omega), List.drop_of_length_le (by omega),
      List.append_nil]

theorem latest_suffix_latest (h : k ≤ m) (items : List α) : latest k items <:+ latest m items :=
  List.drop_suffix_drop_left items (by omega)

end Text

namespace Commands

section Buffer

/-- One line more: what was kept of the lines in front of it decides what is kept now. -/
theorem keepLine_latest {n : Nat} (hn : 0 < n) (lines : List Text) (line : Text) :
    keepLine n (Text.latest n lines) line = Text.latest n (lines ++ [line]) := by
  have hlength := Text.length_latest n lines
  rw [← Text.latest_latest_append, keepLine]
  split
  case isTrue hfull =>
    have hne : Text.latest n lines ≠ [] := by
      intro hnil
      rw [hnil, List.length_nil] at hfull
      omega
    rw [Text.latest.eq_1 n (Text.latest n lines ++ [line]), List.length_append, hfull,
      List.length_singleton, Nat.add_sub_cancel_left, List.drop_one, List.tail_append_of_ne_nil hne]
  case isFalse hroom =>
    have hall : (Text.latest n lines ++ [line]).length - n = 0 := by
      rw [List.length_append, List.length_singleton]
      omega
    rw [Text.latest.eq_1 n (Text.latest n lines ++ [line]), hall, List.drop_zero]

/-- When all lines are read, the last ones are kept, as many of them as are asked for. -/
theorem keepLines_eq_latest (n : Nat) (lines : List Text) :
    keepLines n lines = Text.latest n lines := by
  rw [keepLines]
  split
  case isTrue h => rw [h, Text.latest, Nat.sub_zero, List.drop_length]
  case isFalse h =>
    induction lines using List.reverseRecOn with
    | nil => rw [Text.latest, List.drop_nil, List.foldl_nil]
    | append_singleton lines line ih =>
      rw [List.foldl_append, ih]
      exact keepLine_latest (Nat.pos_of_ne_zero h) lines line

end Buffer

/-- The arguments that ask for so many lines of a file. -/
def linesOf (n : Nat) (file : Text) : List Text :=
  ["-n".toList, Text.decimal n, file]

theorem attachedCount?_eq_some_iff {a v : Text} :
    attachedCount? a = some v ↔ v ≠ [] ∧ a = "-n".toList ++ v := by
  constructor
  · intro h
    unfold attachedCount? at h
    split at h
    case h_1 d rest =>
      cases h
      exact ⟨List.cons_ne_nil d rest, rfl⟩
    case h_2 => cases h
  · rintro ⟨hne, rfl⟩
    obtain ⟨d, rest, rfl⟩ := List.exists_cons_of_ne_nil hne
    rfl

/-- An operand that is not taken for a count. -/
theorem countAndFile_operand {file : Text} (h : ¬"-n".toList <+: file) (c : Command) (n : Nat)
    (before : Option Text) (rest : List Text) :
    countAndFile c n before (file :: rest) = countAndFile c n (some file) rest := by
  have hoption : file ≠ "-n".toList := fun heq => h (heq ▸ List.prefix_rfl)
  have hattached : attachedCount? file = none := by
    rw [Option.eq_none_iff_forall_ne_some]
    intro v hv
    obtain ⟨-, rfl⟩ := attachedCount?_eq_some_iff.mp hv
    exact h (List.prefix_append _ v)
  rw [countAndFile.eq_def]
  dsimp only
  rw [if_neg hoption, hattached]

theorem excerptOf_linesOf (c : Command) {n : Nat} (hn : n ≤ Text.maxCount) {file : Text}
    (hfile : ¬"-n".toList <+: file) : excerptOf c (linesOf n file) = .ok (n, file) := by
  have hcount : countAndFile c usualLines none (linesOf n file) = .ok (n, some file) := by
    rw [linesOf, countAndFile, if_pos rfl, Text.count?_decimal hn]
    exact countAndFile_operand hfile c n none []
  rw [excerptOf, hcount]

variable {s : Setting} {w : Workspace} {file : Text} {bytes : Text.Bytes}

theorem existingFile_of_isFile (c : Command) (h : w.tree.isFile (w.resolve s file) = true) :
    existingFile s w c file = .ok (w.resolve s file) := by
  rw [existingFile, if_neg (by simp [FileTree.isThere_of_isFile h]), if_neg (by simp [h])]

theorem fileBytes_of_read (c : Command) (hfile : w.tree.isFile (w.resolve s file) = true)
    (hread : w.tree.read (w.resolve s file) = .ok bytes) : fileBytes s w c file = .ok bytes := by
  rw [fileBytes, existingFile_of_isFile c hfile]
  dsimp only [bind, Except.bind]
  rw [hread]

section Shown

variable (hfile : w.tree.isFile (w.resolve s file) = true)
  (hread : w.tree.read (w.resolve s file) = .ok bytes) (hoperand : ¬"-n".toList <+: file) {n : Nat}

include hfile hread hoperand

theorem head_linesOf (hn : n ≤ Text.maxCount) :
    head s (linesOf n file) w = .ok (Text.stacked ((shownLines bytes).take n)) := by
  rw [head, excerptOf_linesOf .head hn hoperand]
  dsimp only [bind, Except.bind]
  rw [fileBytes_of_read .head hfile hread]
  rfl

theorem tail_linesOf (hn : n ≤ mostLines) (hmemory : s.memory (roomFor n) = true) :
    tail s (linesOf n file) w =
      .answered (.success (Text.stacked (Text.latest n (shownLines bytes)))) := by
  have hmost : mostLines ≤ Text.maxCount := by decide
  have hlast : lastLines s n file w = .ok (Text.stacked (Text.latest n (shownLines bytes))) := by
    rw [lastLines]
    dsimp only [bind, Except.bind]
    rw [fileBytes_of_read .tail hfile hread]
    dsimp only
    rw [keepLines_eq_latest]
    rfl
  rw [tail, excerptOf_linesOf .tail (hn.trans hmost) hoperand]
  dsimp only
  rw [existingFile_of_isFile .tail hfile]
  dsimp only
  rw [if_neg (Nat.not_lt.mpr hn), if_pos hmemory, hlast]
  rfl

end Shown

/-- What a command shows that is asked for so many lines of a file: just so many, one below
another. -/
def Shows (s : Setting) (w : Workspace) (c : Command) (n : Nat) (file : Text)
    (shown : List Text) : Prop :=
  run s c (linesOf n file) w = (w, .answered (.success (Text.stacked shown))) ∧
    shown.length = n ∧ ∀ line ∈ shown, '\n' ∉ line

/-- Memory has room for so many lines, and for fewer. -/
def HasRoom (s : Setting) (lines : Nat) : Prop :=
  ∀ n ≤ lines, n ≤ mostLines ∧ s.memory (roomFor n) = true

/-- The first lines and the last ones, as many together as there are lines, are all the lines in
their order, and fewer of either are the front or the end of more. There are no more lines than
memory has room for. -/
theorem head_tail_split {lines : List Text} (hfile : w.tree.isFile (w.resolve s file) = true)
    (hread : w.tree.read (w.resolve s file) = .ok bytes) (hoperand : ¬"-n".toList <+: file)
    (hlines : Text.CutInto (Text.lossy bytes) lines) (hroom : HasRoom s lines.length) :
    ∃ firsts lasts : Nat → List Text,
      (∀ n ≤ lines.length, Shows s w .head n file (firsts n) ∧ Shows s w .tail n file (lasts n) ∧
        firsts n ++ lasts (lines.length - n) = lines) ∧
      ∀ k m, k ≤ m → m ≤ lines.length → firsts k <+: firsts m ∧ lasts k <:+ lasts m := by
  have hfree := hlines.lineFeed_notMem
  have hshown : shownLines bytes = lines := hlines.eq_lines.symm
  have hmost : mostLines ≤ Text.maxCount := by decide
  refine ⟨fun n => lines.take n, fun n => Text.latest n lines, ?_, ?_⟩
  · intro n hn
    obtain ⟨hcount, hmemory⟩ := hroom n hn
    have hhead := head_linesOf hfile hread hoperand (hcount.trans hmost)
    have htail := tail_linesOf hfile hread hoperand hcount hmemory
    rw [hshown] at hhead htail
    refine ⟨⟨?_, ?_, ?_⟩, ⟨?_, ?_, ?_⟩, Text.take_append_latest n lines⟩
    · simp only [run, looking, hhead]
      rfl
    · rw [List.length_take, Nat.min_eq_left hn]
    · intro line hline
      exact hfree line (List.mem_of_mem_take hline)
    · simp only [run, htail]
    · rw [Text.length_latest, Nat.min_eq_left hn]
    · intro line hline
      exact hfree line (List.mem_of_mem_drop hline)
  · intro k m hkm _
    exact ⟨List.take_prefix_take_left hkm, Text.latest_suffix_latest hkm lines⟩

/-- Three lines. The second one is empty, and the last one ends with the text. -/
def unendedLines : Text.Bytes :=
  Text.encode ['a', '\r', '\n', '\n', 'b']

theorem head_tail_split_unended :
    (withBytes unendedLines).tree.isFile
        ((withBytes unendedLines).resolve plainSetting ['f']) = true ∧
      (withBytes unendedLines).tree.read
        ((withBytes unendedLines).resolve plainSetting ['f']) = .ok unendedLines ∧
      ¬"-n".toList <+: ['f'] ∧
      Text.CutInto (Text.lossy unendedLines) [['a'], [], ['b']] ∧ HasRoom plainSetting 3 ∧
      ∃ firsts lasts, Shows plainSetting (withBytes unendedLines) .head 1 ['f'] firsts ∧
        Shows plainSetting (withBytes unendedLines) .tail 2 ['f'] lasts ∧
        firsts ++ lasts = [['a'], [], ['b']] := by
  have hresolve : (withBytes unendedLines).resolve plainSetting ['f'] = ['/', 'f'] := by
    change Path.resolve none ['/'] ['f'] = ['/', 'f']
    decide
  have hfind : (withBytes unendedLines).tree.find true (['/', 'f'] : Path) =
      .ok (.entry [Name.ofText ['f']] (.file 0)) :=
    FileTree.find_congr (.single 0o644) (withBytes unendedLines).tree rfl
      (FileTree.single_find 0o644 true)
  have hfile := FileTree.isFile_of_find hfind
  have hread := (existingFile_withBytes unendedLines .head).2
  rw [← hresolve] at hfile hread
  have hlines : Text.CutInto (Text.lossy unendedLines) [['a'], [], ['b']] :=
    Text.cutInto_iff.mpr (by decide)
  have hoperand : ¬"-n".toList <+: ['f'] := by decide
  have hroom : HasRoom plainSetting 3 := fun n hn =>
    ⟨hn.trans (by decide), rfl⟩
  obtain ⟨firsts, lasts, hsplit, -⟩ :=
    head_tail_split hfile hread hoperand hlines hroom
  obtain ⟨hhead, -, hall⟩ := hsplit 1 (by decide)
  obtain ⟨-, htail, -⟩ := hsplit 2 (by decide)
  exact ⟨hfile, hread, hoperand, hlines, hroom, firsts 1, lasts 2, hhead, htail, hall⟩

end Commands

end LineShell

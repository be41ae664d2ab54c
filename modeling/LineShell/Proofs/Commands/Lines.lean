import LineShell.Commands.Excerpt
import LineShell.Commands.Search
import LineShell.Proofs.Commands.Copy
import LineShell.Proofs.Text.LineFeed
import LineShell.Proofs.Text.Trim

/-! What the lines of a file are. One command cuts the bytes, others cut the text that is shown for
them, and one only counts line feeds; all of them go by the same lines. -/

namespace LineShell

namespace Text

/-- All pieces are there but an empty last one. -/
theorem pieces_eq {α : Type} [BEq α] (separator : α) (items : List α) :
    pieces separator items = (items.splitOn separator).dropLast ++
      (items.splitOn separator).getLast?.toList.filter (!·.isEmpty) := by
  obtain ⟨front, last, hparts⟩ := List.eq_nil_or_concat (items.splitOn separator)
    |>.resolve_left (List.splitOn_ne_nil _ _)
  rw [pieces, hparts, List.concat_eq_append, List.getLast?_concat, List.dropLast_concat]
  cases last with
  | nil => simp
  | cons a rest => simp

theorem filter_lossy (parts : List Bytes) :
    (parts.map lossy).filter (!·.isEmpty) = (parts.filter (!·.isEmpty)).map lossy := by
  have hempty : ((!·.isEmpty) ∘ lossy) = fun piece : Bytes => !piece.isEmpty := by
    funext piece
    rw [Function.comp_apply, Bool.eq_iff_iff]
    simp [lossy_eq_nil_iff]
  rw [List.filter_map, hempty]

/-- The pieces between line feeds may be cut out before or after the bytes are read. -/
theorem pieces_lossy (bytes : Bytes) :
    pieces '\n' (lossy bytes) = (pieces 10 bytes).map lossy := by
  rw [pieces_eq, pieces_eq, splitOn_lossy, List.map_append, ← List.map_dropLast, List.getLast?_map,
    Option.toList_map, filter_lossy]

/-- A carriage return before a line feed is one of the blanks at the end. -/
theorem trimEnd_dropReturn (line : Text) : trimEnd (dropReturn line) = trimEnd line := by
  rw [dropReturn]
  split
  case isTrue h =>
    obtain ⟨front, rfl⟩ := List.getLast?_eq_some_iff.mp h
    have hreturn : isBlank '\r' = true := by decide
    rw [List.dropLast_concat, trimEnd, trimEnd, List.reverse_concat,
      List.dropWhile_cons_of_pos hreturn]
  case isFalse => rfl

theorem length_pieces {α : Type} [DecidableEq α] (separator : α) (items : List α) :
    (pieces separator items).length = if items = [] ∨ items.getLast? = some separator
      then items.count separator else items.count separator + 1 := by
  have hlast := getLast?_splitOn_eq_nil_iff separator items
  have hlength := length_splitOn separator items
  rw [pieces]
  cases hget : (items.splitOn separator).getLast? with
  | none => exact absurd (List.getLast?_eq_none_iff.mp hget) (List.splitOn_ne_nil _ _)
  | some last =>
    rw [hget, Option.some_inj] at hlast
    cases last with
    | nil =>
      rw [if_pos (by simp), if_pos (hlast.mp rfl), List.length_dropLast, hlength,
        Nat.add_sub_cancel]
    | cons a rest =>
      have hends : ¬(items = [] ∨ items.getLast? = some separator) := fun h => by
        cases hlast.mpr h
      rw [if_neg (by simp), if_neg hends, hlength]

end Text

namespace Commands

theorem shownLines_eq (bytes : Text.Bytes) :
    shownLines bytes = ((bytes.splitOn 10).dropLast.map fun piece =>
        Text.dropReturn (Text.lossy piece)) ++
      ((bytes.splitOn 10).getLast?.toList.filter (!·.isEmpty)).map Text.lossy := by
  rw [shownLines, Text.lines, Text.splitOn_lossy, ← List.map_dropLast, List.getLast?_map,
    List.map_map, Option.toList_map, Text.filter_lossy]
  rfl

theorem searchedLines_eq (bytes : Text.Bytes) :
    searchedLines bytes = (shownLines bytes).map Text.trimEnd := by
  rw [searchedLines, Text.pieces_eq, shownLines_eq, List.map_append, List.map_append, List.map_map,
    List.map_map]
  congr 1
  exact List.map_congr_left fun piece _ => (Text.trimEnd_dropReturn _).symm

theorem count_lineFeed_lossy (bytes : Text.Bytes) :
    (Text.lossy bytes).count '\n' = bytes.count 10 := by
  have h := Text.length_splitOn '\n' (Text.lossy bytes)
  rw [Text.splitOn_lossy, List.length_map, Text.length_splitOn] at h
  exact (Nat.succ.inj h).symm

/-- The lines that are searched are the lines that are shown without the blanks at their ends. The
number of line feeds is the number of lines, and one less where the last line has none. -/
theorem readers_agree (bytes : Text.Bytes) :
    searchedLines bytes = (shownLines bytes).map Text.trimEnd ∧
      (searchedLines bytes).length = (shownLines bytes).length ∧
      ∀ s w arguments file, (operands arguments).getLast? = some file →
        fileBytes s w .wc file = .ok bytes →
        ∃ n rest, wc s arguments w = .ok ("Lines: " ++ Text.decimal n ++ ", Words: " ++ rest) ∧
          (shownLines bytes).length =
            if bytes = [] ∨ bytes.getLast? = some 10 then n else n + 1 := by
  have hlines := searchedLines_eq bytes
  have hlength : (searchedLines bytes).length = (shownLines bytes).length := by
    rw [hlines, List.length_map]
  refine ⟨hlines, hlength, fun s w arguments file hfile hbytes => ⟨bytes.count 10,
    Text.decimal (Text.words (Text.lossy bytes)).length ++ (", Chars: " ++
      (Text.decimal (Text.lossy bytes).length ++ (" - " ++ w.resolve s file))), ?_, ?_⟩⟩
  · rw [wc, hfile]
    dsimp only [bind, Except.bind]
    rw [hbytes, ← count_lineFeed_lossy bytes]
    simp only [List.append_assoc]
    rfl
  · rw [← hlength, searchedLines, List.length_map]
    exact Text.length_pieces 10 bytes

/-- The bytes of a file with two lines: the first has a character that breaks off, and a carriage
return; the last has no line feed. -/
def brokenBytes : Text.Bytes :=
  [97, 0xE2, 0x82, 13, 10, 98]

def withBroken : Workspace :=
  { cwd := ['/'],
    tree := { FileTree.single 0o644 with
      files := [{ bytes := brokenBytes, mode := 0o644, changed := 0 }] } }

theorem readers_agree_brokenBytes :
    fileBytes plainSetting withBroken .wc ['f'] = .ok brokenBytes ∧
      searchedLines brokenBytes = [['a', Text.replacement], ['b']] ∧
      searchedLines brokenBytes = (shownLines brokenBytes).map Text.trimEnd ∧
      ∃ n rest, wc plainSetting [['f']] withBroken =
          .ok ("Lines: " ++ Text.decimal n ++ ", Words: " ++ rest) ∧
        (shownLines brokenBytes).length = n + 1 := by
  have hresolve : withBroken.resolve plainSetting ['f'] = ['/', 'f'] := by decide
  have hfind : withBroken.tree.find true (['/', 'f'] : Path) =
      .ok (.entry [Name.ofText ['f']] (.file 0)) := by
    have hf : FileTree.FromRoot ['/', 'f'] (Name.ofText ['f']) := by decide
    rw [FileTree.find_fromRoot (by decide) withBroken.tree rfl hf rfl]
    rfl
  have hnode : withBroken.tree.node true (['/', 'f'] : Path) = .ok (.file 0) :=
    (FileTree.node_eq_ok_iff _ _ _ _).mpr ⟨_, hfind⟩
  have hread : withBroken.tree.read (['/', 'f'] : Path) = .ok brokenBytes := by
    rw [FileTree.read, hnode]
    rfl
  have hfile : existingFile plainSetting withBroken .wc ['f'] = .ok ['/', 'f'] := by
    simp only [existingFile, hresolve, FileTree.isThere, FileTree.isFile, hnode]
    rfl
  have hbytes : fileBytes plainSetting withBroken .wc ['f'] = .ok brokenBytes := by
    rw [fileBytes, hfile]
    dsimp only [bind, Except.bind]
    rw [hread]
  have hlast : (operands [['f']]).getLast? = some ['f'] := by decide
  obtain ⟨hlines, -, hwc⟩ := readers_agree brokenBytes
  exact ⟨hbytes, by decide, hlines, hwc plainSetting withBroken [['f']] ['f'] hlast hbytes⟩

end Commands

end LineShell

import LineShell.Proofs.Files.Write
import LineShell.Proofs.Session.Execute
import LineShell.Proofs.Text.Utf8

/-! A text written to a file by one line and shown by the next one. -/

namespace LineShell

open Line (IsGap Written Spelling)

namespace Commands

theorem operands_singleton {f : Text} (hdash : f.head? ≠ some '-') : operands [f] = [f] := by
  simp [operands, hdash]

/-- What is shown of a file, by what reading it comes to. -/
def shownFile (p : Path) (contents : Except IoError Text.Bytes) : Answer :=
  match contents with
  | .ok bytes => .ok (Text.lossy bytes)
  | .error e => .error (.io (.reading .cat p) e)

theorem cat_file {s : Setting} {w : Workspace} {f : Text} (hdash : f.head? ≠ some '-')
    (hfile : w.tree.isFile (w.resolve s f) = true) :
    cat s [f] w = shownFile (w.resolve s f) (w.tree.read (w.resolve s f)) := by
  have hexists : existingFile s w .cat f = .ok (w.resolve s f) := by
    simp [existingFile, FileTree.isThere_of_isFile hfile, hfile]
  rw [cat, operands_singleton hdash]
  simp only [each, fileBytes, hexists, bind, Except.bind]
  cases w.tree.read (w.resolve s f) with
  | ok bytes => simp [shownFile]
  | error e => rfl

end Commands

namespace Session

theorem runCommand_cat (host : Program.Host) (s : Session) (around : Surroundings)
    (arguments : List Text) :
    s.runCommand host around .cat arguments =
      (s, .answered (Commands.cat (s.setting around usualColumns) arguments s.workspace).outcome) :=
  rfl

theorem not_isExit_echo (rest : Text) : isExit ("echo".toList ++ rest) = false :=
  not_isExit (a := 'e') (b := 'c') (by decide) (by decide) (by decide) (by decide) (by decide) _

theorem not_isExit_cat (rest : Text) : isExit ("cat".toList ++ rest) = false :=
  not_isExit (a := 'c') (b := 'a') (by decide) (by decide) (by decide) (by decide) (by decide) _

theorem ofKey_echo : Dispatch.ofKey (Text.lower "echo".toList) = .echo := by
  decide +kernel

theorem isPlain_echo : ∀ d ∈ "echo".toList, Line.IsPlain d :=
  List.all_iff_forall_prop.mp rfl

/-- The text that `echo` is to write, wherever the redirection stands, is what the message of the
line would be without it. -/
theorem execute_echo_redirected (host : Program.Host) (s : Session) (around : Surroundings)
    (before after : List Text) (f gap : Text) (items : List (Written × Text))
    (hitems : items.map (·.1.token) =
      before.map .word ++ [.operator .overwrite, .word f] ++ after.map .word)
    (hwords : ∀ w ∈ f :: (before ++ after), w ≠ []) (hgap : IsGap gap)
    (hgaps : ∀ i ∈ items.dropLast, IsGap i.2) :
    s.execute host around ("echo".toList ++ (gap ++ Line.write items)) =
      let r := { s with coloursOverride := none }.redirect around "echo".toList
        (.success (Text.joined [' '] (before ++ after))) (s.resolve around f) false
      (r.1, .answered r.2) :=
  execute_of_parse_redirected host s around (not_isExit_echo _)
    (Line.parse_redirected (by decide) isPlain_echo hgap items hgaps hitems hwords)
    ofKey_echo { s with coloursOverride := some false } _ rfl

/-- A file is shown as the text of its bytes, however its name is quoted. -/
theorem execute_cat (host : Program.Host) (s : Session) (around : Surroundings) (f gap : Text)
    (spelling : Spelling) (hf : f ≠ []) (hdash : f.head? ≠ some '-') (hgap : IsGap gap)
    (hfile : s.tree.isFile (s.resolve around f) = true) :
    s.execute host around ("cat".toList ++ (gap ++ spelling.write f)) =
      (s, .answered (Commands.shownFile (s.resolve around f)
        (s.tree.read (s.resolve around f))).outcome) := by
  have hparse : Line.parse ("cat".toList ++ (gap ++ spelling.write f)) =
      .ok ({ name := "cat".toList, arguments := [f] }, {}) :=
    Line.parse_words (Command.name_ne_nil .cat) (Command.isPlain_name .cat) hgap
      [(.word spelling f, [])] (by simp) [f] rfl (by simpa using hf)
  have hcat := Commands.cat_file (s := s.setting around usualColumns) (w := s.workspace) hdash hfile
  have hcommand := execute_of_parse host s around (not_isExit_cat _) hparse
    (Dispatch.ofKey_lower_name .cat)
  rw [hcommand, answer, runCommand_cat, hcat]
  rfl

/-- The words behind an `echo`, in whatever spelling, are written to a file with single blanks
between them, wherever the redirection to the file stands. The line names the file, nothing else
changes, and a `cat` of the file shows just that text. -/
theorem echo_then_cat (host : Program.Host) (s : Session) (around : Surroundings) (later : Time)
    (before after : List Text) (f gap gap' : Text) (items : List (Written × Text))
    (hitems : items.map (·.1.token) =
      before.map .word ++ [.operator .overwrite, .word f] ++ after.map .word)
    (hwords : ∀ w ∈ before ++ after, w ≠ []) (hf : f ≠ []) (hdash : f.head? ≠ some '-')
    (hgap : IsGap gap) (hgaps : ∀ i ∈ items.dropLast, IsGap i.2) (hgap' : IsGap gap')
    (spelling : Spelling) (hhold : s.tree.CanHold (s.resolve around f)) :
    ∃ t l id,
      s.execute host around ("echo".toList ++ (gap ++ Line.write items)) =
        ({ s with tree := t, coloursOverride := none },
          .answered (.success ("Output of '" ++ "echo".toList ++ "' redirected to " ++
            s.resolve around f))) ∧
      t.find true (s.resolve around f) = .ok (.entry l (.file id)) ∧
      t.read (s.resolve around f) = .ok (Text.encode (Text.joined [' '] (before ++ after))) ∧
      FileTree.Rewritten s.tree t l id (Text.encode (Text.joined [' '] (before ++ after))) ∧
      { s with tree := t, coloursOverride := none }.execute host { around with clock := later }
          ("cat".toList ++ (gap' ++ spelling.write f)) =
        ({ s with tree := t, coloursOverride := none },
          .answered (.success (Text.joined [' '] (before ++ after)))) := by
  obtain ⟨t, l, id, hwrite, hrewritten, hfind, hgrants⟩ := FileTree.overwrite_rewritten hhold
    around.clock (Text.encode (Text.joined [' '] (before ++ after)))
  have hread := hrewritten.read hfind hgrants
  have hecho := execute_echo_redirected host s around before after f gap items hitems
    (fun w hw => (List.mem_cons.mp hw).elim (fun h => h ▸ hf) (hwords w)) hgap hgaps
  refine ⟨t, l, id, ?_, hfind, hread, hrewritten, ?_⟩
  · rw [hecho]
    simp only [redirect, writeMessage, Outcome.message, hwrite]
    rfl
  · have hcat := execute_cat host { s with tree := t, coloursOverride := none }
      { around with clock := later } f gap' spelling hf hdash hgap' (FileTree.isFile_of_find hfind)
    change _ = (_, Ending.answered (Commands.shownFile _ (t.read (s.resolve around f))).outcome)
      at hcat
    rw [hcat, hread, Commands.shownFile, Text.lossy_encode]
    rfl

/-- A system without programs, and a session in a root directory with one file of some mode. -/
def noPrograms : Program.Host :=
  fun _ _ => .error (.os .noEntry)

def bareSurroundings : Surroundings :=
  { environment := [], account := none, directory := ['/'], columns := none, clock := 1,
    zone := fun _ => 0, colours := false, limit := usualLimit, memory := usualMemory }

def withOneFile (mode : Nat) : Session :=
  { cwd := ['/'], tree := .single mode }

theorem resolve_oneFile (mode : Nat) :
    (withOneFile mode).resolve bareSurroundings ['f'] = ['/', 'f'] := by
  change Path.resolve none ['/'] ['f'] = ['/', 'f']
  decide

theorem find_oneFile (mode : Nat) :
    (withOneFile mode).tree.find true ((withOneFile mode).resolve bareSurroundings ['f']) =
      .ok (.entry [Name.ofText ['f']] (.file 0)) := by
  rw [resolve_oneFile]
  exact FileTree.single_find mode true

/-- `'a b' > "f" \>` as it stands behind the name of a command. -/
def amidWords : List (Written × Text) :=
  [(.word .singleQuoted ['a', ' ', 'b'], [' ']), (.operator .overwrite, ['\t']),
   (.word .doubleQuoted ['f'], [' ', ' ']), (.word .escaped ['>'], [])]

theorem echo_then_cat_amidWords :
    (∀ i ∈ amidWords.dropLast, IsGap i.2) ∧
      (withOneFile 0o644).tree.CanHold ((withOneFile 0o644).resolve bareSurroundings ['f']) ∧
      ∃ t l id,
        (withOneFile 0o644).execute noPrograms bareSurroundings
            ("echo".toList ++ ([' '] ++ Line.write amidWords)) =
          ({ withOneFile 0o644 with tree := t, coloursOverride := none },
            .answered (.success ("Output of '" ++ "echo".toList ++ "' redirected to " ++
              (withOneFile 0o644).resolve bareSurroundings ['f']))) ∧
        t.find true ((withOneFile 0o644).resolve bareSurroundings ['f']) =
          .ok (.entry l (.file id)) ∧
        t.read ((withOneFile 0o644).resolve bareSurroundings ['f']) =
          .ok (Text.encode ['a', ' ', 'b', ' ', '>']) ∧
        FileTree.Rewritten (withOneFile 0o644).tree t l id
          (Text.encode ['a', ' ', 'b', ' ', '>']) ∧
        { withOneFile 0o644 with tree := t, coloursOverride := none }.execute noPrograms
            { bareSurroundings with clock := 2 }
            ("cat".toList ++ ([' '] ++ Spelling.doubleQuoted.write ['f'])) =
          ({ withOneFile 0o644 with tree := t, coloursOverride := none },
            .answered (.success ['a', ' ', 'b', ' ', '>'])) := by
  have hhold : (withOneFile 0o644).tree.CanHold
      ((withOneFile 0o644).resolve bareSurroundings ['f']) :=
    .inl ⟨_, 0, find_oneFile 0o644, by decide, by decide⟩
  exact ⟨by decide, hhold, echo_then_cat noPrograms (withOneFile 0o644) bareSurroundings 2
    [['a', ' ', 'b']] [['>']] ['f'] [' '] [' '] amidWords rfl (by decide) (by decide) (by decide)
    (by decide) (by decide) (by decide) .doubleQuoted hhold⟩

/-- `"h" > "f"` as it stands behind the name of a command. -/
def intoFile : List (Written × Text) :=
  [(.word .doubleQuoted ['h'], [' ']), (.operator .overwrite, [' ']),
   (.word .doubleQuoted ['f'], [])]

/-- A regular file that may not be written keeps what it holds, and one that may not be read is
not shown; the lines say so. -/
theorem echo_then_cat_forbidden :
    (withOneFile 0o444).tree.isFile ((withOneFile 0o444).resolve bareSurroundings ['f']) = true ∧
      (withOneFile 0o444).execute noPrograms bareSurroundings
          ("echo".toList ++ ([' '] ++ Line.write intoFile)) =
        (withOneFile 0o444, .answered (LineError.writing
          ((withOneFile 0o444).resolve bareSurroundings ['f']) (.os .permission)).outcome) ∧
      (withOneFile 0o222).execute noPrograms bareSurroundings
          ("cat".toList ++ ([' '] ++ Spelling.doubleQuoted.write ['f'])) =
        (withOneFile 0o222, .answered (Failure.io (.reading .cat
          ((withOneFile 0o222).resolve bareSurroundings ['f'])) (.os .permission)).outcome) := by
  have hfind := find_oneFile 0o444
  have hecho := execute_echo_redirected noPrograms (withOneFile 0o444) bareSurroundings [['h']] []
    ['f'] [' '] intoFile rfl (by decide) (by decide) (by decide)
  have hwrite (bytes : Text.Bytes) : (withOneFile 0o444).tree.overwrite 1
      ((withOneFile 0o444).resolve bareSurroundings ['f']) bytes = .error (.os .permission) := by
    simp only [FileTree.overwrite, FileTree.changeAt, FileTree.openForWriting, hfind]
    rfl
  have hcat := execute_cat noPrograms (withOneFile 0o222) bareSurroundings ['f'] [' ']
    .doubleQuoted (by decide) (by decide) (by decide)
    (FileTree.isFile_of_find (find_oneFile 0o222))
  have hread : (withOneFile 0o222).tree.read
      ((withOneFile 0o222).resolve bareSurroundings ['f']) = .error (.os .permission) := by
    simp only [FileTree.read, FileTree.node, find_oneFile 0o222]
    rfl
  refine ⟨FileTree.isFile_of_find hfind, hecho.trans ?_, hcat.trans (by rw [hread]; rfl)⟩
  simp only [redirect, writeMessage, Bool.false_eq_true, if_false]
  rw [show bareSurroundings.clock = 1 from rfl]
  simp only [withOneFile] at hwrite ⊢
  rw [hwrite]

end Session

end LineShell

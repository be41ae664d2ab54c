import LineShell.Proofs.Answer
import LineShell.Proofs.Commands.Excerpt

/-! The arguments of the commands that show the first or the last lines of a file: options that tell
how many lines, and operands that tell of which file. -/

namespace LineShell

namespace Commands

/-- Arguments in which count options with these values and these operands are written. The options
are in their order, and so are the operands. A value is an argument of its own, or stands in one
with its option; there it cannot be empty. -/
inductive Spelled : List Text → List Text → List Text → Prop
  | nothing : Spelled [] [] []
  | operand {values files arguments : List Text} {file : Text} (hfile : ¬"-n".toList <+: file)
      (h : Spelled values files arguments) : Spelled values (file :: files) (file :: arguments)
  | apart {values files arguments : List Text} (v : Text) (h : Spelled values files arguments) :
      Spelled (v :: values) files ("-n".toList :: v :: arguments)
  | attached {values files arguments : List Text} {v : Text} (hv : v ≠ [])
      (h : Spelled values files arguments) :
      Spelled (v :: values) files (("-n".toList ++ v) :: arguments)

/-- What count options with these values ask for, along with these operands. The last option counts,
and so does the last operand; without options there are ten lines. Of values that are no counts the
first is complained of. Where all are counts, the complaint may be that there is no operand. -/
inductive Asked (c : Command) : List Text → List Text → Except Failure (Nat × Text) → Prop
  | usual (files : List Text) (file : Text) : Asked c [] (files ++ [file]) (.ok (10, file))
  | counted {values : List Text} {v : Text} {n : Nat}
      (hvalues : ∀ u ∈ values, ∃ m, Text.IsCount u m) (hv : Text.IsCount v n) (files : List Text)
      (file : Text) : Asked c (values ++ [v]) (files ++ [file]) (.ok (n, file))
  | invalid {front : List Text} {v : Text} (hfront : ∀ u ∈ front, ∃ m, Text.IsCount u m)
      (hv : ∀ m, ¬Text.IsCount v m) (back files : List Text) :
      Asked c (front ++ v :: back) files (.error (Complaint.invalidLineCount c v))
  | missing {values : List Text} (hvalues : ∀ u ∈ values, ∃ m, Text.IsCount u m) :
      Asked c values [] (.error (Complaint.missing c "file operand" "file.txt"))

/-- The count that a value is. -/
def lineCount (c : Command) (value : Text) : Except Failure Nat :=
  match Text.count? value with
  | some n => .ok n
  | none => .error (Complaint.invalidLineCount c value)

/-- What comes of reading all values in their order, where the last count and the last operand are
kept. -/
def lastRead (c : Command) (n : Nat) (file : Option Text) (values files : List Text) :
    Except Failure (Nat × Option Text) :=
  (values.mapM (lineCount c)).map fun counts => (counts.getLastD n, (files.map some).getLastD file)

variable {c : Command} {values files arguments : List Text} {v : Text}
  {result : Except Failure (Nat × Text)}

theorem lineCount_of_isCount {n : Nat} (h : Text.IsCount v n) : lineCount c v = .ok n := by
  rw [lineCount, Text.count?_eq_some_iff.mpr h]

theorem lineCount_of_not_isCount (h : ∀ n, ¬Text.IsCount v n) :
    lineCount c v = .error (Complaint.invalidLineCount c v) := by
  rw [lineCount, Text.count?_eq_none_iff.mpr h]

theorem exists_lineCount (h : ∀ u ∈ values, ∃ m, Text.IsCount u m) :
    ∀ u ∈ values, ∃ m, lineCount c u = .ok m := by
  intro u hu
  obtain ⟨m, hm⟩ := h u hu
  exact ⟨m, lineCount_of_isCount hm⟩

theorem lastRead_value (c : Command) (n : Nat) (before : Option Text) (v : Text)
    (values files : List Text) :
    lastRead c n before (v :: values) files =
      lineCount c v >>= fun m => lastRead c m before values files := by
  rw [lastRead, List.mapM_cons]
  cases lineCount c v with
  | error f => rfl
  | ok m =>
    change _ = lastRead c m before values files
    rw [lastRead]
    cases values.mapM (lineCount c) with
    | error f => rfl
    | ok counts =>
      have hlast : (m :: counts).getLastD n = counts.getLastD m := List.getLastD_cons
      exact congrArg (fun last => Except.ok (last, _)) hlast

theorem lastRead_operand (c : Command) (n : Nat) (before : Option Text) (values : List Text)
    (file : Text) (files : List Text) :
    lastRead c n before values (file :: files) = lastRead c n (some file) values files := by
  rw [lastRead, List.map_cons, List.getLastD_cons, lastRead]

theorem countAndFile_apart (c : Command) (n : Nat) (before : Option Text) (v : Text)
    (rest : List Text) :
    countAndFile c n before ("-n".toList :: v :: rest) =
      lineCount c v >>= fun m => countAndFile c m before rest := by
  rw [countAndFile, if_pos rfl, lineCount]
  cases Text.count? v <;> rfl

/-- A value is read alike in either place. -/
theorem countAndFile_attached (hv : v ≠ []) (c : Command) (n : Nat) (before : Option Text)
    (rest : List Text) :
    countAndFile c n before (("-n".toList ++ v) :: rest) =
      countAndFile c n before ("-n".toList :: v :: rest) := by
  have hoption : "-n".toList ++ v ≠ "-n".toList := fun h => hv (List.append_right_eq_self.mp h)
  rw [countAndFile.eq_def]
  dsimp only
  rw [if_neg hoption, attachedCount?_eq_some_iff.mpr ⟨hv, rfl⟩, countAndFile, if_pos rfl]

/-- Neither how options are spelled nor where operands stand among them is seen in what is read. -/
theorem Spelled.countAndFile_eq (h : Spelled values files arguments) (c : Command) (n : Nat)
    (before : Option Text) :
    countAndFile c n before arguments = lastRead c n before values files := by
  induction h generalizing n before with
  | nothing => rfl
  | operand hfile _ ih => rw [countAndFile_operand hfile, lastRead_operand, ih]
  | apart v _ ih => simp only [countAndFile_apart, lastRead_value, ih]
  | attached hv _ ih => simp only [countAndFile_attached hv, countAndFile_apart, lastRead_value, ih]

theorem Asked.excerptOf_eq (hr : Asked c values files result)
    (h : Spelled values files arguments) : excerptOf c arguments = result := by
  rw [excerptOf, h.countAndFile_eq, lastRead]
  cases hr with
  | usual files file =>
    rw [List.map_append, List.map_singleton, List.getLastD_concat]
    rfl
  | @counted values v n hvalues hv files file =>
    obtain ⟨counts, hcounts⟩ := Except.exists_mapM_eq_ok (lineCount c) values
      (exists_lineCount hvalues)
    have hall : (values ++ [v]).mapM (lineCount c) = .ok (counts ++ [n]) := by
      rw [List.mapM_append, hcounts, List.mapM_cons, lineCount_of_isCount hv]
      rfl
    rw [hall, List.map_append, List.map_singleton]
    simp only [Except.map, List.getLastD_concat]
  | invalid hfront hv back files =>
    rw [Except.mapM_eq_error (exists_lineCount hfront) (lineCount_of_not_isCount hv) back]
    rfl
  | @missing values hvalues =>
    obtain ⟨counts, hcounts⟩ := Except.exists_mapM_eq_ok (lineCount c) values
      (exists_lineCount hvalues)
    rw [hcounts]
    rfl

/-- All values are counts, or one of them is the first that is none. -/
theorem exists_first_invalid (values : List Text) :
    (∀ u ∈ values, ∃ m, Text.IsCount u m) ∨
      ∃ front v back, values = front ++ v :: back ∧ (∀ u ∈ front, ∃ m, Text.IsCount u m) ∧
        ∀ m, ¬Text.IsCount v m := by
  induction values with
  | nil => exact .inl (by simp)
  | cons v values ih =>
    by_cases hv : ∃ m, Text.IsCount v m
    · rcases ih with hall | ⟨front, w, back, rfl, hfront, hw⟩
      · exact .inl (List.forall_mem_cons.mpr ⟨hv, hall⟩)
      · exact .inr ⟨v :: front, w, back, rfl, List.forall_mem_cons.mpr ⟨hv, hfront⟩, hw⟩
    · exact .inr ⟨[], v, values, rfl, by simp, not_exists.mp hv⟩

/-- Whatever is asked, there is an answer. -/
theorem exists_asked (c : Command) (values files : List Text) :
    ∃ result, Asked c values files result := by
  rcases exists_first_invalid values with hall | ⟨front, v, back, rfl, hfront, hv⟩
  · rcases files.eq_nil_or_concat' with rfl | ⟨files, file, rfl⟩
    · exact ⟨_, .missing hall⟩
    rcases values.eq_nil_or_concat' with rfl | ⟨values, v, rfl⟩
    · exact ⟨_, .usual files file⟩
    · rw [List.forall_mem_append, List.forall_mem_singleton] at hall
      obtain ⟨hvalues, n, hv⟩ := hall
      exact ⟨_, .counted hvalues hv files file⟩
  · exact ⟨_, .invalid hfront hv back files⟩

/-- The values of count options and the operands, each in their order, settle what arguments ask
for. It does not matter how an option is spelled, or how options and operands are mixed. -/
theorem excerptOf_eq_iff_asked (h : Spelled values files arguments) :
    excerptOf c arguments = result ↔ Asked c values files result := by
  refine ⟨?_, fun hr => hr.excerptOf_eq h⟩
  rintro rfl
  obtain ⟨result, hr⟩ := exists_asked c values files
  rwa [hr.excerptOf_eq h]

/-- Options in both spellings with operands between them; and an option that is taken for the value
of the one in front of it. -/
theorem excerptOf_mixed :
    Spelled ["2", "+03"] ["a", "b"] ["-n", "2", "a", "-n+03", "b"] ∧
      excerptOf .tail ["-n", "2", "a", "-n+03", "b"] = .ok (3, "b") ∧
      Spelled ["5", "-n1", "x"] ["a"] ["-n5", "a", "-n", "-n1", "-nx"] ∧
      excerptOf .head ["-n5", "a", "-n", "-n1", "-nx"] =
        .error (Complaint.invalidLineCount .head "-n1") := by
  have hcounted : Spelled ["2", "+03"] ["a", "b"] ["-n", "2", "a", "-n+03", "b"] :=
    .apart _ (.operand (by decide) (.attached (by decide) (.operand (by decide) .nothing)))
  have hinvalid : Spelled ["5", "-n1", "x"] ["a"] ["-n5", "a", "-n", "-n1", "-nx"] :=
    .attached (by decide) (.operand (by decide) (.apart _ (.attached (by decide) .nothing)))
  have htwo : Text.IsCount "2" 2 := Text.count?_eq_some_iff.mp (by decide)
  have hthree : Text.IsCount "+03" 3 := Text.count?_eq_some_iff.mp (by decide)
  have hfive : Text.IsCount "5" 5 := Text.count?_eq_some_iff.mp (by decide)
  have hno : ∀ m, ¬Text.IsCount "-n1" m := Text.count?_eq_none_iff.mp (by decide)
  refine ⟨hcounted, ?_, hinvalid, ?_⟩
  · exact (excerptOf_eq_iff_asked hcounted).mpr
      (.counted (List.forall_mem_singleton.mpr ⟨2, htwo⟩) hthree ["a"] "b")
  · exact (excerptOf_eq_iff_asked hinvalid).mpr
      (.invalid (List.forall_mem_singleton.mpr ⟨5, hfive⟩) hno ["x"] ["a"])

end Commands

end LineShell

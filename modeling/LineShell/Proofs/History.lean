import LineShell.History
import LineShell.Proofs.Text.Trim
import Mathlib.Data.List.Destutter

/-! What a session remembers, against a log that has no bound. Only the lines that are still there
are looked at for a repeat, and the oldest ones are dropped; the log tells the same lines apart. -/

namespace LineShell

namespace Text

variable {α : Type} {n : Nat}

theorem length_latest (n : Nat) (items : List α) :
    (latest n items).length = min n items.length := by
  rw [latest, List.length_drop]
  omega

/-- The last element is among the latest ones. -/
theorem getLast?_latest (hn : 0 < n) (items : List α) :
    (latest n items).getLast? = items.getLast? := by
  rw [latest, List.getLast?_drop]
  split
  case isTrue h =>
    rw [List.length_eq_zero_iff.mp (by omega : items.length = 0)]
    rfl
  case isFalse => rfl

/-- What was dropped before would be dropped now. -/
theorem latest_latest_append (n : Nat) (items more : List α) :
    latest n (latest n items ++ more) = latest n (items ++ more) := by
  have hdrop : latest n items ++ more = (items ++ more).drop (items.length - n) := by
    rw [latest, List.drop_append_of_le_length (Nat.sub_le _ _)]
  rw [hdrop, latest, latest, List.drop_drop, List.length_drop, List.length_append]
  congr 1
  omega

end Text

namespace History

section Repeats

variable {α : Type} [DecidableEq α]

/-- One element more is kept by a list without repeats unless the last one is the same. -/
private theorem destutter'_concat (a b : α) (items : List α) :
    (items ++ [b]).destutter' (· ≠ ·) a =
      if (items.destutter' (· ≠ ·) a).getLast? = some b then items.destutter' (· ≠ ·) a
      else items.destutter' (· ≠ ·) a ++ [b] := by
  induction items generalizing a with
  | nil => by_cases h : a = b <;> simp [h]
  | cons c items ih =>
    by_cases h : a = c
    · simpa [h] using ih c
    · rw [List.cons_append, List.destutter'_cons_pos _ h, List.destutter'_cons_pos _ h, ih c,
        List.getLast?_cons_of_ne_nil (List.destutter'_ne_nil _ _)]
      split <;> rfl

private theorem destutter_concat (items : List α) (b : α) :
    (items ++ [b]).destutter (· ≠ ·) =
      if (items.destutter (· ≠ ·)).getLast? = some b then items.destutter (· ≠ ·)
      else items.destutter (· ≠ ·) ++ [b] := by
  cases items with
  | nil => simp
  | cons a items => exact destutter'_concat a b items

end Repeats

/-- All lines without the blanks around them, blank ones left out and each run of equal ones
once. -/
def log (lines : List Text) : List Text :=
  ((lines.map Text.trim).filter (!·.isEmpty)).destutter (· ≠ ·)

theorem log_concat (lines : List Text) (line : Text) :
    log (lines ++ [line]) =
      if Text.trim line = [] ∨ (log lines).getLast? = some (Text.trim line) then log lines
      else log lines ++ [Text.trim line] := by
  rw [log, List.map_append, List.map_singleton, List.filter_append]
  by_cases hblank : Text.trim line = []
  · rw [if_pos (.inl hblank), hblank, List.filter_cons_of_neg (by simp), List.filter_nil,
      List.append_nil]
    rfl
  · rw [List.filter_cons_of_pos (by simpa using hblank), List.filter_nil, destutter_concat]
    simp only [hblank, false_or]
    rfl

theorem add_eq (h : History) (line : Text) :
    h.add line =
      if Text.trim line = [] ∨ h.entries.getLast? = some (Text.trim line) then h
      else { h with entries := Text.latest h.capacity (h.entries ++ [Text.trim line]) } := by
  simp only [History.add, Bool.or_eq_true, List.isEmpty_iff, decide_eq_true_eq]

/-- A log is made of trimmed lines, and no line stands next to its like. -/
theorem log_lines (lines : List Text) :
    (∀ line ∈ log lines, line ≠ [] ∧ Text.trim line = line) ∧ (log lines).IsChain (· ≠ ·) := by
  refine ⟨fun line hline => ?_, List.isChain_destutter _ _⟩
  have hkept := (List.destutter_sublist _ _).subset hline
  obtain ⟨hmem, hne⟩ := List.mem_filter.mp hkept
  obtain ⟨typed, -, rfl⟩ := List.mem_map.mp hmem
  exact ⟨by simpa using hne, Text.trim_trim typed⟩

/-- The history holds as much of a log as it has room for. -/
structure Retains (h : History) (logged : List Text) : Prop where
  room : 0 < h.capacity
  entries : h.entries = Text.latest h.capacity logged

theorem Retains.add {h : History} {lines : List Text} (hr : h.Retains (log lines)) (line : Text) :
    (h.add line).Retains (log (lines ++ [line])) := by
  have hlast : h.entries.getLast? = (log lines).getLast? := by
    rw [hr.entries, Text.getLast?_latest hr.room]
  rw [log_concat, ← hlast, add_eq]
  split
  case isTrue => exact hr
  case isFalse =>
    refine ⟨hr.room, ?_⟩
    rw [hr.entries, Text.latest_latest_append]

theorem capacity_add (h : History) (line : Text) : (h.add line).capacity = h.capacity := by
  rw [add_eq]
  split <;> rfl

theorem capacity_foldl_add (h : History) (lines : List Text) :
    (lines.foldl History.add h).capacity = h.capacity := by
  induction lines generalizing h with
  | nil => rfl
  | cons line lines ih => rw [List.foldl_cons, ih, capacity_add]

theorem withCapacity_retains (c : Nat) : (withCapacity c).Retains (log []) :=
  ⟨Nat.lt_of_lt_of_le Nat.one_pos (Nat.le_max_right c 1), by
    rw [log, List.map_nil, List.filter_nil, List.destutter_nil, Text.latest, List.drop_nil]
    rfl⟩

theorem retains_foldl_add (c : Nat) (lines : List Text) :
    (lines.foldl History.add (withCapacity c)).Retains (log lines) := by
  induction lines using List.reverseRecOn with
  | nil => exact withCapacity_retains c
  | append_singleton lines line ih =>
    rw [List.foldl_append]
    exact ih.add line

/-- After any lines the history holds the last ones of the log, as many as it has room for, and so
never a blank or untrimmed line nor the same line twice in a row. -/
theorem entries_eq_latest_log (c : Nat) (lines : List Text) :
    let h := lines.foldl History.add (withCapacity c)
    h.entries = Text.latest (max c 1) (log lines) ∧
      h.size ≤ max c 1 ∧
      (∀ line ∈ h.entries, line ≠ [] ∧ Text.trim line = line) ∧
      h.entries.IsChain (· ≠ ·) := by
  intro h
  have hentries : h.entries = Text.latest (max c 1) (log lines) := by
    rw [(retains_foldl_add c lines).entries, capacity_foldl_add]
    rfl
  obtain ⟨hlines, hchain⟩ := log_lines lines
  refine ⟨hentries, ?_, fun line hline => hlines line ?_, ?_⟩
  · rw [size, hentries, Text.length_latest]
    exact Nat.min_le_left _ _
  · exact List.mem_of_mem_drop (hentries ▸ hline)
  · rw [hentries, Text.latest]
    exact hchain.drop _

end History

end LineShell

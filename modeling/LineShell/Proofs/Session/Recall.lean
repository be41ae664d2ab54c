import LineShell.Proofs.History
import LineShell.Proofs.Session.Redirect
import LineShell.Proofs.Session.RoundTrip
import LineShell.Proofs.Text.Lowercase
import LineShell.Proofs.Text.Numeral

/-! What `history` shows: the last of the remembered lines, each behind its place among all of
them. How many is told by an integer, which may be any that 64 bits hold. -/

namespace LineShell

namespace Line

theorem text_subset_of_mem_tokenize {line : Text} {tok : Token} (h : tok ∈ tokenize line) :
    tok.text ⊆ line := by
  intro c hc
  have hkept : c ∈ keptText (marks .bare line) :=
    text_tokenize line ▸ List.mem_flatMap.mpr ⟨tok, h, hc⟩
  obtain ⟨m, hm, rfl⟩ := List.mem_map.mp hkept
  have hmark : m.char ∈ (marks .bare line).map Mark.char :=
    List.mem_map_of_mem (List.mem_of_mem_filter hm)
  rwa [map_char_marks] at hmark

theorem name_mem_tokenize {line : Text} {i : Invocation} {r : Redirection}
    (h : parse line = .ok (i, r)) : .word i.name ∈ tokenize line := by
  obtain ⟨redirected, horder, -⟩ := resolve_eq_ok_iff.mp (resolve_of_parse h)
  generalize tokenize line = tokens at horder
  generalize hwords : i.name :: i.arguments = words at horder
  have hname : i.name ∈ words := hwords ▸ List.mem_cons_self
  cases horder with
  | plain => exact List.mem_map_of_mem hname
  | redirected before after =>
    rw [List.mem_append] at hname
    rw [List.mem_append, List.mem_cons, List.mem_cons]
    rcases hname with hname | hname
    · exact .inl (List.mem_map_of_mem hname)
    · exact .inr (.inr (.inr (List.mem_map_of_mem hname)))

end Line

namespace History

/-- The last `n` entries as they are shown, oldest first, each behind its place among all. -/
def ShowsLast (h : History) (n : Nat) (shown : Text) : Prop :=
  ∃ before last, h.entries = before ++ last ∧ last.length = n ∧
    shown = Text.stacked
      (last.mapIdx fun i line => Text.decimal (before.length + i + 1) ++ ". " ++ line)

/-- What is said of an argument that is no integer. -/
def refusal (given : Text) : Outcome :=
  .failure ("history: limit must be a number, got '" ++ given ++ "'")

/-- What `history` is to come to: all entries, the last of them by an integer of any size, but one
at least, or a refusal. -/
inductive Recalls (h : History) : List Text → Outcome → Prop
  | all {shown : Text} (hshown : h.ShowsLast h.size shown) : Recalls h [] (.success shown)
  | last {given : Text} {n : Int} {more : List Text} {shown : Text} (hn : Text.IsInteger given n)
      (hshown : h.ShowsLast (min h.size (max 1 n).toNat) shown) :
      Recalls h (given :: more) (.success shown)
  | refused {given : Text} {more : List Text} (hno : ∀ n, ¬Text.IsInteger given n) :
      Recalls h (given :: more) (refusal given)

/-- An argument that is an integer is one of 64 bits. -/
def Fits (arguments : List Text) : Prop :=
  ∀ given n, arguments.head? = some given → Text.IsInteger given n → Text.FitsInteger n

section

variable {h : History}

theorem render_showsLast (hne : h.entries ≠ []) (limit : Option Nat) :
    h.ShowsLast (min h.size (limit.getD h.size)) (h.render limit) := by
  generalize hcount : limit.getD h.size = n
  refine ⟨h.entries.take (h.size - n), Text.latest n h.entries, ?_, ?_, ?_⟩
  · exact (List.take_append_drop _ _).symm
  · rw [Text.length_latest, size, Nat.min_comm]
  · have hlength : (h.entries.take (h.size - n)).length = h.size - n :=
      List.length_take_of_le (Nat.sub_le _ _)
    have hlatest : Text.latest n h.numbered =
        (Text.latest n h.entries).mapIdx fun i line =>
          Text.decimal (h.size - n + i + 1) ++ ". " ++ line := by
      apply List.ext_getElem
      · simp [Text.latest, numbered, size]
      · intro i hi hi'
        simp [Text.latest, numbered, size]
    rw [hlength, render, if_neg (by simpa using hne), hcount, hlatest]

/-- The last entry is shown last. -/
theorem ShowsLast.getLast {n : Nat} {shown line : Text} (hshown : h.ShowsLast n shown) (hn : 0 < n)
    (hlast : h.entries.getLast? = some line) :
    ∃ above, shown = Text.stacked (above ++ [Text.decimal h.size ++ ". " ++ line]) := by
  obtain ⟨before, last, hentries, rfl, rfl⟩ := hshown
  cases last using List.reverseRecOn with
  | nil => cases hn
  | append_singleton last line' _ =>
    rw [hentries, ← List.append_assoc, List.getLast?_concat] at hlast
    obtain rfl := Option.some.inj hlast
    refine ⟨last.mapIdx fun i line => Text.decimal (before.length + i + 1) ++ ". " ++ line, ?_⟩
    rw [List.mapIdx_concat, size, hentries, List.length_append, List.length_append]
    rfl

theorem size_pos (hne : h.entries ≠ []) : 0 < h.size :=
  List.length_pos_of_ne_nil hne

theorem getLast?_add (hroom : 0 < h.capacity) {line : Text} (hline : Text.trim line ≠ []) :
    (h.add line).entries.getLast? = some (Text.trim line) := by
  rw [add_eq]
  split
  case isTrue hrepeat => exact hrepeat.resolve_left hline
  case isFalse => rw [Text.getLast?_latest hroom, List.getLast?_concat]

theorem ne_nil_of_getLast? {line : Text} (hlast : h.entries.getLast? = some line) :
    h.entries ≠ [] := by
  intro hnil
  rw [hnil] at hlast
  cases hlast

end

end History

namespace Session

open History

theorem outcome_invalidLimit (given : Text) :
    (Failure.mk (.invalidLimit given) none).outcome = refusal given := by
  have hmessage : (Failure.mk (.invalidLimit given) none).message =
      (Complaint.invalidLimit given).message := by
    rw [Failure.message, Text.joined]
    exact List.intercalate_singleton
  rw [Failure.outcome, hmessage]
  rfl

section

variable {h : History} (hne : h.entries ≠ []) (arguments : List Text)

include hne

/-- Entries are shown, one at least, or the argument is not read as an integer. -/
theorem showHistory_cases :
    (∃ n shown, 0 < n ∧ h.ShowsLast n shown ∧ (showHistory h arguments).outcome = .success shown ∧
      h.Recalls arguments (.success shown) ∧ Fits arguments) ∨
    ∃ given more, arguments = given :: more ∧ (showHistory h arguments).outcome = refusal given ∧
      ∀ n, Text.IsInteger given n → ¬Text.FitsInteger n := by
  have hsize := size_pos hne
  cases arguments with
  | nil =>
    have hshown := render_showsLast hne none
    rw [Option.getD_none, Nat.min_self] at hshown
    exact .inl ⟨_, _, hsize, hshown, rfl, .all hshown, by rintro _ _ ⟨⟩⟩
  | cons given more =>
    cases hread : Text.integer? given with
    | none =>
      refine .inr ⟨given, more, rfl, ?_, fun n hn hfits => ?_⟩
      · simp only [showHistory, List.head?_cons, hread]
        exact outcome_invalidLimit given
      · rw [Text.integer?_eq_some_iff.mpr ⟨hn, hfits⟩] at hread
        cases hread
    | some n =>
      obtain ⟨hn, hfits⟩ := Text.integer?_eq_some_iff.mp hread
      have hshown := render_showsLast hne (some (max n 1).toNat)
      rw [Option.getD_some, max_comm] at hshown
      refine .inl ⟨_, _, ?_, hshown, ?_, .last hn hshown, ?_⟩
      · omega
      · simp only [showHistory, List.head?_cons, hread, max_comm]
        rfl
      · rintro _ m ⟨⟩ hm
        rwa [hm.unique hn]

theorem recalls_showHistory_iff :
    h.Recalls arguments (showHistory h arguments).outcome ↔ Fits arguments := by
  rcases showHistory_cases hne arguments with
    ⟨-, shown, -, -, ho, hrecalls, hfits⟩ | ⟨given, more, rfl, ho, hlarge⟩
  · rw [ho]
    exact iff_of_true hrecalls hfits
  · rw [ho]
    by_cases hinteger : ∃ n, Text.IsInteger given n
    · obtain ⟨n, hn⟩ := hinteger
      refine iff_of_false (fun hrecalls => ?_) fun hfits => hlarge n hn (hfits given n rfl hn)
      cases hrecalls with
      | refused hno => exact hno n hn
    · refine iff_of_true (.refused fun n hn => hinteger ⟨n, hn⟩) ?_
      rintro _ n ⟨⟩ hn
      exact absurd ⟨n, hn⟩ hinteger

end

section

variable (host : Program.Host) (around : Surroundings) {line : Text} {i : Line.Invocation}
  {r : Line.Redirection} (hparse : Line.parse line = .ok (i, r))
  (hkey : i.key = "history".toList)

include hparse hkey

/-- The name on the line keeps a letter that no other line with such a name can do without. -/
theorem exists_letter : ∃ d ∈ Text.trim line, d ≠ Text.capitalSigma ∧ 'y' ∈ Text.lowerChar d := by
  have hy : 'y' ∈ Text.lowerAfter [] i.name := by
    change 'y' ∈ i.key
    rw [hkey]
    decide
  obtain ⟨d, hd, hsigma, hlower⟩ := (Text.mem_lowerAfter_iff (by decide) []).mp hy
  refine ⟨d, Text.mem_trim ?_ (Line.text_subset_of_mem_tokenize (Line.name_mem_tokenize hparse) hd),
    hsigma, hlower⟩
  rw [Bool.eq_false_iff]
  intro hblank
  rw [Text.lowerChar_of_isBlank hblank, List.mem_singleton] at hlower
  rw [← hlower] at hblank
  exact absurd hblank (by decide)

theorem isExit_of_history : isExit line = false := by
  rw [Bool.eq_false_iff]
  intro hexit
  obtain ⟨-, -, hname⟩ := (isBareExit_of_isExit hexit).1.parsed hparse
  rw [hkey] at hname
  exact absurd hname (by decide)

theorem execute_history (s : Session) (hout : r.output = none) :
    s.execute host around line = (s, .answered (showHistory s.history i.arguments).outcome) := by
  rw [s.execute_of_parse_eq host around (isExit_of_history hparse hkey) hparse, carryOut, hout]
  have hhistory : Dispatch.ofKey i.key = .history := by
    rw [hkey]
    decide
  rw [s.dispatch_eq host around hhistory]
  rfl

/-- `history` changes nothing, and comes to what it is to come to exactly if the argument is no
integer beyond 64 bits. A line that is submitted is remembered first, and so the last one shown. -/
theorem history_recalls_iff (hout : r.output = none) :
    (∀ s : Session, s.history.entries ≠ [] → ∃ o,
      s.execute host around line = (s, .answered o) ∧
        (s.history.Recalls i.arguments o ↔ Fits i.arguments)) ∧
    ∀ s : Session, 0 < s.history.capacity → ∃ o,
      s.submit host around line = ({ s with history := s.history.add line }, .answered o) ∧
        ((s.history.add line).Recalls i.arguments o ↔ Fits i.arguments) ∧
        ∀ shown, o = .success shown → ∃ above, shown = Text.stacked
          (above ++ [Text.decimal (s.history.add line).size ++ ". " ++ Text.trim line]) := by
  refine ⟨fun s hne => ?_, fun s hroom => ?_⟩
  · exact ⟨_, execute_history host around hparse hkey s hout,
      recalls_showHistory_iff hne i.arguments⟩
  · obtain ⟨d, hd, -⟩ := exists_letter hparse hkey
    have hlast := getLast?_add hroom (List.ne_nil_of_mem hd)
    have hne := ne_nil_of_getLast? hlast
    refine ⟨_, execute_history host around hparse hkey _ hout,
      recalls_showHistory_iff hne i.arguments, fun shown hshown => ?_⟩
    rcases showHistory_cases hne i.arguments with
      ⟨n, shown', hn, hshows, ho, -, -⟩ | ⟨given, -, -, ho, -⟩
    · rw [ho, Outcome.success.injEq] at hshown
      exact hshown ▸ hshows.getLast hn hlast
    · rw [ho] at hshown
      cases hshown

end

/-- A session that remembers three lines. -/
def threeLines : Session :=
  { withOneFile 0o644 with
    history := ["echo a".toList, "pwd".toList, "ls".toList].foldl History.add .empty }

private theorem submit_of_parse {line : Text} {given : Text} {name : Text}
    (hparse : Line.parse line = .ok ({ name, arguments := [given] }, {}))
    (hkey : Text.lower name = "history".toList) :
    (threeLines.submit noPrograms bareSurroundings line).2 =
      .answered (showHistory (threeLines.history.add line) [given]).outcome := by
  rw [submit, execute_history _ _ hparse hkey _ rfl]

theorem history_recalls_two :
    Line.parse "HISTORY +2" = .ok ({ name := "HISTORY".toList, arguments := ["+2".toList] }, {}) ∧
      0 < threeLines.history.capacity ∧
      Text.IsInteger "+2".toList 2 ∧
      (threeLines.submit noPrograms bareSurroundings "HISTORY +2").2 =
        .answered (.success "3. ls\n4. HISTORY +2") ∧
      (threeLines.history.add "HISTORY +2").Recalls ["+2".toList]
        (.success "3. ls\n4. HISTORY +2") := by
  have hparse : Line.parse "HISTORY +2" =
      .ok ({ name := "HISTORY".toList, arguments := ["+2".toList] }, {}) := by
    decide
  have hkey : Text.lower "HISTORY".toList = "history".toList := by decide
  have hinteger : Text.IsInteger "+2".toList 2 :=
    .positive ⟨by decide, List.all_eq_true.mp (by decide), by decide⟩
  obtain ⟨o, hsubmit, hrecalls, -⟩ :=
    (history_recalls_iff noPrograms bareSurroundings hparse hkey rfl).2 threeLines (by decide)
  have hout : (showHistory (threeLines.history.add "HISTORY +2") ["+2".toList]).outcome =
      .success "3. ls\n4. HISTORY +2" := by
    decide
  have hanswer := submit_of_parse hparse hkey
  rw [hout] at hanswer
  rw [hsubmit] at hanswer
  obtain rfl := Ending.answered.inj hanswer
  refine ⟨hparse, by decide, hinteger, hanswer ▸ congrArg Prod.snd hsubmit, hrecalls.mpr ?_⟩
  rintro _ n ⟨⟩ hn
  rw [hn.unique hinteger]
  decide

/-- An integer that takes more than 64 bits is said to be no number. -/
theorem history_beyondInteger :
    (threeLines.submit noPrograms bareSurroundings "history 9223372036854775808").2 =
        .answered (refusal "9223372036854775808") ∧
      Text.IsInteger "9223372036854775808".toList 9223372036854775808 ∧
      ¬(threeLines.history.add "history 9223372036854775808").Recalls
        ["9223372036854775808".toList] (refusal "9223372036854775808") := by
  have hinteger : Text.IsInteger "9223372036854775808".toList 9223372036854775808 :=
    .unsigned (n := 9223372036854775808)
      ⟨by decide, List.all_eq_true.mp (by decide), by decide⟩
  have hout : (showHistory (threeLines.history.add "history 9223372036854775808")
      ["9223372036854775808".toList]).outcome = refusal "9223372036854775808" := by
    decide
  refine ⟨?_, hinteger, fun hrecalls => ?_⟩
  · rw [← hout]
    exact @submit_of_parse _ _ "history".toList (by decide) (by decide)
  · rw [← hout, recalls_showHistory_iff (by decide)] at hrecalls
    exact absurd (hrecalls _ _ rfl hinteger) (by decide)

end Session

end LineShell

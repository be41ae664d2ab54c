import LineShell.Help.Page
import LineShell.Proofs.Answer
import LineShell.Proofs.Help.Catalogue
import LineShell.Proofs.Text.Paint
import LineShell.Proofs.Text.Wrap

/-! The pages of the help with and without colours. All that is put into a frame is free of escape
sequences as long as the names and descriptions are. -/

namespace LineShell

namespace Text

theorem escape_notMem_wrap {t : Text} (h : escape ∉ t) (limit : Nat) :
    ∀ l ∈ wrap t limit, escape ∉ l :=
  notMem_wrap (by decide) h limit

end Text

namespace Help

open Text

/-- An entry without escape characters. -/
structure Entry.Clean (e : Entry) : Prop where
  name : escape ∉ e.name
  usage : escape ∉ e.usage
  summary : escape ∉ e.summary
  examples : ∀ sample ∈ e.examples, escape ∉ sample

theorem clean_catalogue : ∀ e ∈ catalogue, e.Clean := fun e he =>
  have hneat := neat_catalogue e he
  ⟨hneat.name.printable.notMem (by decide), hneat.usage.printable.notMem (by decide),
    hneat.summary.notMem (by decide),
    fun sample hsample => (hneat.examples sample hsample).printable.notMem (by decide)⟩

/-- Capitals are put in the place of small letters only, and are no escape characters. -/
theorem escape_notMem_upper {t : Text} (h : escape ∉ t) : escape ∉ t.map Char.toUpper := by
  rw [List.mem_map]
  rintro ⟨c, hc, hupper⟩
  unfold Char.toUpper at hupper
  split at hupper
  case isTrue hsmall =>
    have hval : (c.val + ('A'.val - 'a'.val)).toNat = 27 := congrArg (·.val.toNat) hupper
    have hlow : 97 ≤ c.val.toNat := UInt32.le_iff_toNat_le.mp hsmall.1
    have hhigh : c.val.toNat ≤ 122 := UInt32.le_iff_toNat_le.mp hsmall.2
    have hgap : ('A'.val - 'a'.val).toNat = 4294967264 := by decide
    rw [UInt32.toNat_add, hgap] at hval
    omega
  case isFalse => exact h (hupper ▸ hc)

/-- What is put into a frame comes out the same with and without colours. -/
abbrev CleanContent (content : List Framed) : Prop :=
  ∀ f ∈ content, f.Clean

theorem clean_append {a b : List Framed} (ha : CleanContent a) (hb : CleanContent b) :
    CleanContent (a ++ b) :=
  List.forall_mem_append.mpr ⟨ha, hb⟩

theorem clean_flatten {parts : List (List Framed)} (h : ∀ part ∈ parts, CleanContent part) :
    CleanContent parts.flatten := fun f hf =>
  (List.mem_flatten.mp hf).elim fun part hpart => h part hpart.1 f hpart.2

/-- A heading and the rule below it. -/
theorem clean_heading (inner : Nat) {t : Text} (h : escape ∉ t) :
    CleanContent [.centered inner t, .rule] :=
  List.forall_mem_cons.mpr ⟨Framed.clean_centered inner h, List.forall_mem_singleton.mpr trivial⟩

theorem clean_texts {lines : List Text} (h : ∀ l ∈ lines, escape ∉ l) :
    CleanContent (lines.map .text) :=
  List.forall_mem_map.mpr fun l hl => Framed.clean_text (h l hl)

theorem all_namedRow {name line : Text} (hname : escape ∉ name) (hline : escape ∉ line) :
    Except.All Framed.Clean (namedRow name line) := by
  refine Except.All.bind (P := fun _ => True) (fun _ _ => trivial) fun free _ => .ok ?_
  have hbehind : escape ∉ blanks free ++ line := by
    rw [List.mem_append]
    exact not_or.mpr ⟨escape_notMem_blanks free, hline⟩
  exact List.forall_mem_cons.mpr ⟨Span.clean_plain (by decide), List.forall_mem_cons.mpr
    ⟨Span.clean_styled (by decide) hname, List.forall_mem_singleton.mpr (Span.clean_plain hbehind)⟩⟩

theorem all_entryRows (inner : Nat) {e : Entry} (h : e.Clean) :
    Except.All CleanContent (e.rows inner) := by
  have hlines := escape_notMem_wrap h.summary (summaryColumns inner)
  rw [Entry.rows]
  split
  case h_1 => exact .ok fun _ hf => absurd hf List.not_mem_nil
  case h_2 first others hwrap =>
    rw [hwrap, List.forall_mem_cons] at hlines
    refine (all_namedRow h.name hlines.1).bind fun row hrow => ?_
    have hothers := Except.All.mapM fun line hline =>
      all_namedRow List.not_mem_nil (hlines.2 line hline)
    exact hothers.bind fun rows hrows => .ok (List.forall_mem_cons.mpr ⟨hrow, hrows⟩)

theorem all_categoryRows (inner : Nat) (c : Category) :
    Except.All CleanContent (c.rows inner) := by
  have htitle : escape ∉ c.title := by cases c <;> decide
  have hrows := Except.All.mapM fun e he =>
    all_entryRows inner (clean_catalogue e (List.mem_filter (p := (·.category = c)).mp he).1)
  refine hrows.bind fun rows hall => .ok ?_
  have hrow : Framed.Clean (.row [.styled .boldBrightYellow c.title]) :=
    List.forall_mem_singleton.mpr (Span.clean_styled (by decide) htitle)
  exact clean_append (List.forall_mem_cons.mpr ⟨hrow, clean_flatten hall⟩)
    (List.forall_mem_singleton.mpr trivial)

theorem all_tableContent (inner : Nat) : Except.All CleanContent (tableContent inner) := by
  have hrows := Except.All.mapM fun c (_ : c ∈ Category.all) => all_categoryRows inner c
  refine hrows.bind fun rows hall => .ok ?_
  have hnotes : ∀ l ∈ ["Use 'help --command' for details on one command.".toList,
      "Any other program on PATH can be run too.".toList], escape ∉ l := by decide
  exact clean_append (clean_append (clean_heading inner (by decide)) (clean_flatten hall))
    (clean_texts hnotes)

/-- The table of all commands is the same with and without colours. -/
theorem table_matches (width : Nat) :
    Except.Matches Paints (table false width) (table true width) := by
  have hall := all_tableContent (inside width)
  rw [table, table]
  cases hcontent : tableContent (inside width) with
  | error e => exact .error e
  | ok content => exact .ok (paints_frame width (hall content hcontent))

theorem clean_entryContent (inner : Nat) {e : Entry} (h : e.Clean) :
    CleanContent (entryContent inner e) := by
  have hname : escape ∉ "HELP: ".toList ++ e.name.map Char.toUpper := by
    rw [List.mem_append, not_or]
    exact ⟨by decide, escape_notMem_upper h.name⟩
  have husage : Framed.Clean (.row [.plain "Usage: ", .styled .boldBrightGreen e.usage]) :=
    List.forall_mem_cons.mpr ⟨Span.clean_plain (by decide),
      List.forall_mem_singleton.mpr (Span.clean_styled (by decide) h.usage)⟩
  have hsamples : CleanContent (exampleContent e) := by
    rw [exampleContent]
    split
    case isTrue => exact fun _ hf => absurd hf List.not_mem_nil
    case isFalse =>
      refine List.forall_mem_cons.mpr ⟨trivial, List.forall_mem_cons.mpr
        ⟨List.forall_mem_singleton.mpr (Span.clean_styled (by decide) (by decide)), ?_⟩⟩
      refine List.forall_mem_map.mpr fun sample hsample => List.forall_mem_cons.mpr
        ⟨Span.clean_plain (by decide), List.forall_mem_singleton.mpr
          (Span.clean_styled (by decide) (h.examples sample hsample))⟩
  have husage' : CleanContent [.centered inner ("HELP: " ++ e.name.map Char.toUpper), .rule,
      .row [.plain "Usage: ", .styled .boldBrightGreen e.usage]] :=
    clean_append (clean_heading inner hname) (List.forall_mem_singleton.mpr husage)
  exact clean_append (clean_append husage' (clean_texts (escape_notMem_wrap h.summary _))) hsamples

theorem clean_programContent (inner : Nat) {name description : Text} (hname : escape ∉ name)
    (hdescription : escape ∉ description) :
    CleanContent (programContent inner name description) := by
  have htitle : escape ∉ "HELP: ".toList ++ name ++ " (system command)".toList := by
    simp only [List.mem_append, not_or]
    exact ⟨⟨by decide, hname⟩, by decide⟩
  have hnote : escape ∉ "Run '".toList ++ name ++ " --help' or 'man ".toList ++ name ++
      "' for the full manual.".toList := by
    simp only [List.mem_append, not_or]
    exact ⟨⟨⟨⟨by decide, hname⟩, by decide⟩, hname⟩, by decide⟩
  exact clean_append (clean_append (clean_heading inner htitle)
      (clean_texts (escape_notMem_wrap hdescription _)))
    (List.forall_mem_cons.mpr ⟨trivial, List.forall_mem_singleton.mpr (Framed.clean_text hnote)⟩)

theorem clean_unknownContent {name : Text} (hname : escape ∉ name) :
    CleanContent (unknownContent name) := by
  have hmessage : escape ∉ "Command '".toList ++ name ++ "' not found".toList := by
    simp only [List.mem_append, not_or]
    exact ⟨⟨by decide, hname⟩, by decide⟩
  exact List.forall_mem_cons.mpr
    ⟨List.forall_mem_singleton.mpr (Span.clean_styled (by decide) hmessage),
      List.forall_mem_singleton.mpr (Framed.clean_text (by decide))⟩

end Help

end LineShell

import LineShell.Proofs.Help
import LineShell.Proofs.Listing.Painted
import LineShell.Proofs.Session.Frame
import LineShell.Proofs.Session.RoundTrip

/-! What colours change. A session asks whether there are colours where it lays out a text, and
nowhere else; a text that goes to a file is laid out without them. -/

namespace LineShell

/-- What surrounds a session where colours are used or not. -/
def Surroundings.recoloured (on : Bool) (around : Surroundings) : Surroundings :=
  { around with colours := on }

namespace Surroundings

variable (around : Surroundings) (on : Bool)

theorem environment_recoloured : (around.recoloured on).environment = around.environment := rfl

theorem columns_recoloured : (around.recoloured on).columns = around.columns := rfl

theorem limit_recoloured : (around.recoloured on).limit = around.limit := rfl

end Surroundings

namespace Session

open Surroundings

open Program

/-- The session with another say on colours. -/
def recoloured (override : Option Bool) (s : Session) : Session :=
  { s with coloursOverride := override }

section Recoloured

variable (host : Host) (s : Session) (around : Surroundings) (override : Option Bool) (on : Bool)

theorem tree_recoloured : (s.recoloured override).tree = s.tree := rfl

theorem cwd_recoloured : (s.recoloured override).cwd = s.cwd := rfl

theorem calm_recoloured : (s.recoloured override).calm = s.calm.recoloured override := rfl

theorem launch_recoloured (program : Path) (arguments : List Text) (limit : Option Nat) :
    (s.recoloured override).launch (around.recoloured on) program arguments limit =
      s.launch around program arguments limit := rfl

theorem ask_recoloured (what : Text) :
    (s.recoloured override).ask host (around.recoloured on) what =
      (s.ask host around what).map (recoloured override) id := by
  have hask : measuring (around.recoloured on) what = measuring around what := rfl
  rw [ask, ask, hask, tree_recoloured]
  cases host s.tree (measuring around what) <;> rfl

theorem measure_recoloured :
    (s.recoloured override).measure host (around.recoloured on) =
      (s.measure host around).map (recoloured override) id := by
  rw [measure, measure, ask_recoloured, columns_recoloured]
  cases around.columns with
  | some n => rfl
  | none =>
    obtain ⟨s', answer⟩ := s.ask host around "cols"
    cases answer with
    | error why => rfl
    | ok columns =>
      simp only [Prod.map, id, ask_recoloured]
      obtain ⟨s'', answer⟩ := s'.ask host around "lines"
      cases answer <;> rfl

theorem runAttached_recoloured (name : Text) (program : Path) (arguments : List Text) :
    (s.recoloured override).runAttached host (around.recoloured on) name program arguments =
      (s.runAttached host around name program arguments).map (recoloured override) id := by
  simp only [runAttached, calm_recoloured, tree_recoloured, launch_recoloured]
  cases host s.calm.tree (s.calm.launch around program arguments none) <;> rfl

theorem runCaptured_recoloured (name : Text) (program : Path) (arguments : List Text) :
    (s.recoloured override).runCaptured host (around.recoloured on) name program arguments =
      (s.runCaptured host around name program arguments).map (recoloured override) id := by
  simp only [runCaptured, calm_recoloured, tree_recoloured, limit_recoloured, launch_recoloured]
  cases host s.calm.tree (s.calm.launch around program arguments (some around.limit)) with
  | error e => rfl
  | ok report =>
    dsimp only
    cases report.watched.run <;> rfl

theorem runProgram_recoloured (name : Text) (arguments : List Text) :
    (s.recoloured override).runProgram host (around.recoloured on) name arguments =
      (s.runProgram host around name arguments).map (recoloured override) id := by
  have hprogram : (s.recoloured override).programFor (around.recoloured on) name =
      s.programFor around name := rfl
  rw [runProgram, runProgram, hprogram]
  cases s.programFor around name with
  | none => rfl
  | some program =>
    dsimp only
    rw [runAttached_recoloured, runCaptured_recoloured]
    split <;> rfl

theorem probe_recoloured (program : Path) (arguments : List Text) :
    (s.recoloured override).probe host (around.recoloured on) program arguments =
      (s.probe host around program arguments).map (recoloured override) id := by
  have hcapture : (s.recoloured override).capture host (around.recoloured on) program arguments
      probeLimit = (s.capture host around program arguments probeLimit).map
        (recoloured override) id := by
    rw [capture, capture, tree_recoloured, launch_recoloured]
    cases host s.tree
      { s.launch around program arguments (some probeLimit) with input := [] } <;> rfl
  rw [probe, probe, hcapture]
  obtain ⟨s', captured⟩ := s.capture host around program arguments probeLimit
  cases captured with
  | error e => rfl
  | ok c => cases c <;> rfl

theorem describe_recoloured (name : Text) :
    (s.recoloured override).describe host (around.recoloured on) name =
      (s.describe host around name).map (recoloured override) id := by
  rw [describe, describe, tree_recoloured, environment_recoloured, cwd_recoloured]
  cases locate s.tree around.environment s.cwd name with
  | none => rfl
  | some program =>
    dsimp only
    rw [probe_recoloured]
    obtain ⟨s', help⟩ := s.probe host around program ["--help".toList]
    dsimp only [Prod.map, id]
    cases help.bind Help.descriptionLine? with
    | some line => rfl
    | none =>
      dsimp only
      rw [tree_recoloured, cwd_recoloured]
      cases locate s'.tree around.environment s'.cwd "man" with
      | none => rfl
      | some man =>
        dsimp only
        rw [probe_recoloured]
        rfl

variable (hcolours : override.getD on = s.colours around)

include hcolours

theorem helpFor_recoloured (columns : Nat) (given : Text) :
    (s.recoloured override).helpFor host (around.recoloured on) columns given =
      (s.helpFor host around columns given).map (recoloured override) id := by
  have hon : (s.recoloured override).colours (around.recoloured on) = s.colours around := hcolours
  rw [helpFor, helpFor, hon, describe_recoloured]
  split
  case h_1 => rfl
  case h_2 =>
    obtain ⟨s', description⟩ := s.describe host around _
    cases description <;> rfl

theorem help_recoloured (columns : Nat) (arguments : List Text) :
    (s.recoloured override).help host (around.recoloured on) columns arguments =
      (s.help host around columns arguments).map (recoloured override) id := by
  have hon : (s.recoloured override).colours (around.recoloured on) = s.colours around := hcolours
  rw [help, help, hon]
  split
  case h_1 given _ =>
    rw [helpFor_recoloured host s around override on hcolours]
    rfl
  case h_2 => rfl

theorem runHelp_recoloured (arguments : List Text) :
    (s.recoloured override).runHelp host (around.recoloured on) arguments =
      (s.runHelp host around arguments).map (recoloured override) id := by
  have hmeasured := s.alike_measure host around
  rw [runHelp, runHelp, measure_recoloured]
  obtain ⟨⟨s', measured⟩, hmeasure⟩ : ∃ r, s.measure host around = r := ⟨_, rfl⟩
  rw [hmeasure] at hmeasured ⊢
  cases measured with
  | error why => rfl
  | ok columns =>
    have hon : override.getD on = s'.colours around := by
      rw [colours, hmeasured.coloursOverride]
      exact hcolours
    exact help_recoloured host s' around override on hon columns arguments

theorem runOn_recoloured (columns : Nat) (c : Command) (arguments : List Text) :
    (s.recoloured override).runOn (around.recoloured on) columns c arguments =
      (s.runOn around columns c arguments).map (recoloured override) id := by
  have hsetting : (s.recoloured override).setting (around.recoloured on) columns =
      s.setting around columns := by
    have hon : (s.recoloured override).colours (around.recoloured on) = s.colours around := hcolours
    rw [setting, setting, hon]
    rfl
  rw [runOn, runOn, hsetting]
  rfl

theorem runCommand_recoloured (c : Command) (arguments : List Text) :
    (s.recoloured override).runCommand host (around.recoloured on) c arguments =
      (s.runCommand host around c arguments).map (recoloured override) id := by
  have hneeds : (s.recoloured override).needsColumns (around.recoloured on) c arguments =
      s.needsColumns around c arguments := rfl
  rw [runCommand, runCommand, hneeds, measure_recoloured]
  split
  case isTrue =>
    obtain ⟨s', measured⟩ := s.measure host around
    cases measured with
    | error why => rfl
    | ok columns =>
      dsimp only [Prod.map, id]
      rw [runOn_recoloured s around override on hcolours]
      rfl
  case isFalse => exact runOn_recoloured s around override on hcolours usualColumns c arguments

/-- With the same colours an invocation is carried out alike, wherever it is said that they are
used. -/
theorem dispatch_recoloured (i : Line.Invocation) :
    (s.recoloured override).dispatch host (around.recoloured on) i =
      (s.dispatch host around i).map (recoloured override) id := by
  rw [dispatch, dispatch]
  cases Dispatch.ofKey i.key with
  | command c => exact runCommand_recoloured host s around override on hcolours c i.arguments
  | help => exact runHelp_recoloured host s around override on hcolours i.arguments
  | program =>
    rw [answer, answer, runProgram_recoloured]
    rfl
  | history | clear | echo | notFound => rfl

end Recoloured

section Redirected

variable (host : Host) (s : Session) (around : Surroundings)

/-- A text that goes to a file is the one that the command comes to without colours, whatever is
said of them. -/
theorem carryOut_redirected_eq (i : Line.Invocation) {r : Line.Redirection} {target : Text}
    (htarget : r.output = some target) :
    s.carryOut host around i r =
      match { s with coloursOverride := none }.dispatch host { around with colours := false } i with
      | (s', .crashed why) => ({ s' with coloursOverride := some false }, .crashed why)
      | (s', .aborted bytes) => ({ s' with coloursOverride := some false }, .aborted bytes)
      | (s', .answered o) =>
        ((s'.redirect around i.key o (s'.resolve around target) r.append).1,
          .answered (s'.redirect around i.key o (s'.resolve around target) r.append).2) := by
  have hoff := dispatch_recoloured host { s with coloursOverride := none }
    { around with colours := false } (some false) around.colours rfl i
  have hnone := (Session.enters_dispatch host { s with coloursOverride := none }
    { around with colours := false } i).coloursOverride
  obtain ⟨⟨s', ending⟩, hdispatch⟩ : ∃ r, { s with coloursOverride := none }.dispatch host
    { around with colours := false } i = r := ⟨_, rfl⟩
  rw [hdispatch] at hoff hnone ⊢
  have hdispatch' : { s with coloursOverride := some false }.dispatch host around i =
      (s'.recoloured (some false), ending) := hoff
  simp only [carryOut, htarget, hdispatch']
  cases ending with
  | crashed why => rfl
  | aborted bytes => rfl
  | answered o =>
    cases s'
    cases hnone
    rfl

end Redirected

open Text (escape unpainted)

/-- Without its escape sequences a text with colours is the text without them: a listing, unless it
is one in columns where the line feeds that are dropped at its end belong to the name of a
directory; and all pages of the help. A text that goes to a file is always the one without. -/
theorem layout_uncoloured (width : Nat) :
    (∀ zone options (t : FileTree) (p : Place),
      (∀ entries, t.list p = .ok entries → ∀ e ∈ entries,
        escape ∉ e.1.shown ∧ e.1.shown ≠ []) →
      ((Listing.render true zone width options t p).map (·.map (unpainted false)) =
          Listing.render false zone width options t p ↔
        options.long = true ∨ ∀ entries, t.list p = .ok entries →
          Listing.reachesPainted
            (Listing.rows width (Listing.labels options entries)).reverse = false)) ∧
      (Help.table true width).map (unpainted false) = Help.table false width ∧
      (∀ e : Help.Entry, e.Clean →
        unpainted false (Help.entryPage true width e) = Help.entryPage false width e) ∧
      (∀ name description, escape ∉ name → escape ∉ description →
        unpainted false (Help.programPage true width name description) =
          Help.programPage false width name description) ∧
      (∀ name, escape ∉ name →
        unpainted false (Help.unknownPage true width name) = Help.unknownPage false width name) ∧
      ∀ host (s : Session) around i (r : Line.Redirection) target, r.output = some target →
        s.carryOut host around i r =
          match { s with coloursOverride := none }.dispatch host { around with colours := false } i
          with
          | (s', .crashed why) => ({ s' with coloursOverride := some false }, .crashed why)
          | (s', .aborted bytes) => ({ s' with coloursOverride := some false }, .aborted bytes)
          | (s', .answered o) =>
            ((s'.redirect around i.key o (s'.resolve around target) r.append).1,
              .answered (s'.redirect around i.key o (s'.resolve around target) r.append).2) :=
  ⟨Listing.render_matches_iff width,
    (Help.table_matches width).map_eq fun _ _ => Text.Paints.unpainted_eq,
    fun _ h => (Text.paints_frame width (Help.clean_entryContent _ h)).unpainted_eq,
    fun _ _ hname hdescription =>
      (Text.paints_frame width (Help.clean_programContent _ hname hdescription)).unpainted_eq,
    fun _ hname => (Text.paints_frame width (Help.clean_unknownContent hname)).unpainted_eq,
    fun host s around i _ _ htarget => s.carryOut_redirected_eq host around i htarget⟩

/-- A root directory with one directory in it. -/
def oneDirectory (name : Text) : FileTree :=
  { root := .dir 0o755 0 [(Name.ofText name, .dir 0o755 0 [])], files := [] }

theorem list_oneDirectory (name : Text) :
    (oneDirectory name).list (['/'] : Path) = .ok [(Name.ofText name, .dir 0o755 0 [])] := by
  have hsearch : Access.search.granted 0o755 = true := by decide
  have hread : Access.read.granted 0o755 = true := by decide
  refine (FileTree.list_eq_ok_iff _ _ _).mpr ⟨[], (oneDirectory name).root, ?_, rfl, hread, rfl⟩
  exact (FileTree.find_eq_ok_iff _ _ _ _).mpr
    ⟨by decide, .root ⟨_, rfl, rfl, hsearch⟩ (.arrived rfl)⟩

theorem labels_oneDirectory {name : Text} (h : name.head? ≠ some '.') :
    Listing.labels {} [(Name.ofText name, .dir 0o755 0 [])] =
      [{ text := name, isDir := true }] := by
  have hshown : Name.shown (Name.ofText name) = name := by
    rw [Name.shown, Text.shown, Name.ofText, List.map_map]
    exact List.map_id name
  simp [Listing.labels, Listing.listed, Listing.label, hshown, h, Node.isDir]

theorem rows_singleton (terminal : Nat) (l : Listing.Label) :
    Listing.rows terminal [l] = [[l]] := by
  rw [Listing.rows, Listing.chunks, List.take_nil, List.drop_nil, Listing.chunks]

theorem render_oneDirectory (on : Bool) (zone : Time → Int) (terminal : Nat) {name : Text}
    (h : name.head? ≠ some '.') :
    Listing.render on zone terminal {} (oneDirectory name) (['/'] : Path) =
      .ok (.ok (Listing.dropLineFeeds
        (Listing.Label.shown on { text := name, isDir := true }))) := by
  rw [Listing.render, list_oneDirectory]
  change Except.ok (Listing.inColumns on terminal (Listing.labels {} _)) = _
  rw [labels_oneDirectory h, Listing.inColumns_eq, rows_singleton]
  simp [Listing.shownRow, Text.stacked, Text.joined]

/-- `pwd` with its output sent to the file `f`. -/
def toFile : Line.Invocation × Line.Redirection :=
  ({ name := "pwd", arguments := [] }, { output := some ['f'] })

theorem layout_uncoloured_oneDirectory :
    (∀ entries, (oneDirectory ['d']).list (['/'] : Path) = .ok entries →
        ∀ e ∈ entries, escape ∉ e.1.shown ∧ e.1.shown ≠ []) ∧
      (Listing.render true (fun _ => 0) 80 {} (oneDirectory ['d']) (['/'] : Path)).map
          (·.map (unpainted false)) =
        Listing.render false (fun _ => 0) 80 {} (oneDirectory ['d']) (['/'] : Path) ∧
      (∀ e ∈ Help.catalogue, e.Clean ∧
        unpainted false (Help.entryPage true 80 e) = Help.entryPage false 80 e) ∧
      unpainted false (Help.programPage true 80 ['x'] "does something") =
        Help.programPage false 80 ['x'] "does something" ∧
      unpainted false (Help.unknownPage true 80 ['x']) = Help.unknownPage false 80 ['x'] ∧
      (withOneFile 0o644).carryOut noPrograms { bareSurroundings with colours := true }
          toFile.1 toFile.2 =
        (((withOneFile 0o644).redirect bareSurroundings "pwd" (.success ['/']) ['/', 'f'] false).1,
          .answered ((withOneFile 0o644).redirect bareSurroundings "pwd" (.success ['/']) ['/', 'f']
            false).2) := by
  have hclean : ∀ entries, (oneDirectory ['d']).list (['/'] : Path) = .ok entries →
      ∀ e ∈ entries, escape ∉ e.1.shown ∧ e.1.shown ≠ [] := by
    rw [list_oneDirectory]
    rintro _ ⟨⟩
    decide
  have hrows : ∀ entries, (oneDirectory ['d']).list (['/'] : Path) = .ok entries →
      Listing.reachesPainted (Listing.rows 80 (Listing.labels {} entries)).reverse = false := by
    rw [list_oneDirectory]
    rintro _ ⟨⟩
    rw [labels_oneDirectory (by decide), rows_singleton]
    decide
  obtain ⟨hlisting, -, hentry, hprogram, hunknown, hfile⟩ := layout_uncoloured 80
  have hresolve : (withOneFile 0o644).resolve bareSurroundings ['f'] = ['/', 'f'] :=
    resolve_oneFile 0o644
  have hpwd := hfile noPrograms (withOneFile 0o644) { bareSurroundings with colours := true }
    toFile.1 toFile.2 ['f'] rfl
  refine ⟨hclean, (hlisting (fun _ => 0) {} _ _ hclean).mpr (.inr hrows),
    fun e he => ⟨Help.clean_catalogue e he, hentry e (Help.clean_catalogue e he)⟩,
    hprogram ['x'] "does something" (by decide) (by decide), hunknown ['x'] (by decide), ?_⟩
  rw [hpwd, ← hresolve]
  rfl

/-- The line feed that a directory's name ends in is shown with colours and dropped without. -/
theorem render_lineFeed :
    Listing.render true (fun _ => 0) 80 {} (oneDirectory ['d', '\n']) (['/'] : Path) =
        .ok (.ok ([escape] ++ "[1;34md\n" ++ [escape] ++ "[0m")) ∧
      Listing.render false (fun _ => 0) 80 {} (oneDirectory ['d', '\n']) (['/'] : Path) =
        .ok (.ok ['d']) ∧
      unpainted false ([escape] ++ "[1;34md\n" ++ [escape] ++ "[0m") = ['d', '\n'] := by
  rw [render_oneDirectory true _ 80 (by decide), render_oneDirectory false _ 80 (by decide)]
  exact ⟨congrArg _ (congrArg _ (by decide)), congrArg _ (congrArg _ (by decide)), by decide⟩

end Session

end LineShell

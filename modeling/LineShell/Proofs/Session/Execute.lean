import LineShell.Proofs.Line.Redirection
import LineShell.Proofs.Registry
import LineShell.Proofs.Text.Trim
import LineShell.Session.Execute
import Mathlib.Data.Bool.AllAny

/-! How a line that is parsed comes to what its name is dispatched to, with or without a file for
the message. -/

namespace LineShell

/-- A name is read as it stands, with no quoting. -/
theorem Command.isPlain_name (c : Command) : ∀ d ∈ c.name, Line.IsPlain d :=
  List.all_iff_forall_prop.mp (by cases c <;> rfl)

theorem Command.name_ne_nil (c : Command) : c.name ≠ [] := by
  cases c <;> decide

theorem Line.Invocation.lower_key (i : Line.Invocation) : Text.lower i.key = i.key :=
  Text.lower_lower i.name

/-- A command that has one name only is what that name is dispatched to, and no other name. -/
theorem Line.Invocation.ofKey_eq_command_iff {i : Line.Invocation} {c : Command} (hc : c ≠ .ls) :
    Dispatch.ofKey i.key = .command c ↔ i.key = c.name := by
  constructor
  · intro h
    have hleads := Dispatch.leads_ofKey i.key
    rw [h] at hleads
    rw [← hleads.eq_name hc, i.lower_key]
  · intro h
    rw [← i.lower_key, h, Dispatch.ofKey_lower_name]

/-- A name that is not reserved is left to a program. -/
theorem Line.Invocation.ofKey_eq_program_iff {i : Line.Invocation} :
    Dispatch.ofKey i.key = .program ↔ Registry.reserves i.name = false := by
  rw [Dispatch.ofKey_eq_program_iff, Line.Invocation.key, Registry.reserves_lower]

namespace Session

theorem isExit_iff (line : Text) : isExit line = true ↔
    Text.lower (Text.trim line) = "exit".toList ∨ Text.lower (Text.trim line) = "quit".toList := by
  simp [isExit, Registry.exitCommands]

/-- The first two letters of a line tell that it does not end the session. -/
theorem not_isExit {a b : Char} (ha : Text.lowerChar a = [a]) (hb : Text.lowerChar b = [b])
    (hblank : Text.isBlank a = false ∧ Text.isBlank b = false)
    (hsigma : a ≠ Text.capitalSigma ∧ b ≠ Text.capitalSigma)
    (hends : ∀ name ∈ Registry.exitCommands, ¬ [a, b] <+: name) (rest : Text) :
    isExit (a :: b :: rest) = false := by
  rw [Bool.eq_false_iff]
  intro hexit
  have hname := List.contains_iff_mem.mp hexit
  rw [Text.trim_cons hblank.1, Text.trimEnd_cons hblank.2, Text.lower,
    Text.lowerAfter_cons hsigma.1 ha, Text.lowerAfter_cons hsigma.2 hb] at hname
  exact hends _ hname (List.prefix_append [a, b] _)

variable (host : Program.Host) (s : Session) (around : Surroundings)

theorem dispatch_eq {i : Line.Invocation} {d : Dispatch} (h : Dispatch.ofKey i.key = d) :
    s.dispatch host around i = s.answer host around i d := by
  rw [dispatch, h]

/-- A line that is parsed, and sends its message to no file. -/
theorem execute_of_parse {line : Text} (hexit : isExit line = false) {i : Line.Invocation}
    (hparse : Line.parse line = .ok (i, {})) {d : Dispatch} (hkey : Dispatch.ofKey i.key = d) :
    s.execute host around line = s.answer host around i d := by
  rw [execute, hexit, hparse, ← s.dispatch_eq host around hkey]
  rfl

/-- A line that sends the message of what its name is dispatched to to a file. -/
theorem execute_of_parse_redirected {line : Text} (hexit : isExit line = false)
    {i : Line.Invocation} {target : Text} {append : Bool}
    (hparse : Line.parse line = .ok (i, { output := some target, append }))
    {d : Dispatch} (hkey : Dispatch.ofKey i.key = d) (s' : Session) (o : Outcome)
    (hrun : { s with coloursOverride := some false }.answer host around i d =
      (s', .answered o)) :
    s.execute host around line =
      let s' := { s' with coloursOverride := none }
      let r := s'.redirect around i.key o (s'.resolve around target) append
      (r.1, .answered r.2) := by
  rw [execute, hexit, hparse]
  simp only [carryOut, dispatch, hkey, hrun]
  rfl

end Session

end LineShell

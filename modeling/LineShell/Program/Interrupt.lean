/-! Ctrl+C as the shell keeps it in mind: one flag, which is set when it arrives and cleared when it
is read. -/

namespace LineShell.Program

/-- Whether Ctrl+C has arrived since the flag was read last. -/
structure Interrupt where
  raised : Bool := false
  deriving DecidableEq, Repr

namespace Interrupt

/-- Ctrl+C arrives, or does not. -/
def arrive (i : Interrupt) (now : Bool) : Interrupt :=
  ⟨i.raised || now⟩

/-- Reads the flag and clears it. -/
def take (i : Interrupt) : Bool × Interrupt :=
  (i.raised, {})

end Interrupt

end LineShell.Program

import LineShell.Count
import LineShell.Program.Host
import LineShell.Session.Basic

/-! The columns of the terminal. Where no terminal tells them, a program is asked for them, which
answers with the digits among what it writes. -/

namespace LineShell.Session

open Program

/-- The columns where nothing tells them. -/
def usualColumns : Nat := 80

/-- One more than the largest number that columns and lines are counted with. -/
def countLimit : Nat := 65536

/-- A count with one digit more. -/
def pushDigit (n digit : Nat) : Except Crash Nat :=
  if n * 10 ≥ countLimit then .error .product else Count.more countLimit (n * 10) digit

/-- The count that the digits among some bytes make. -/
def countIn (bytes : Text.Bytes) : Except Crash Nat :=
  (bytes.filter fun b => 48 ≤ b.toNat && b.toNat ≤ 57).foldlM
    (fun n b => pushDigit n (b.toNat - 48)) 0

/-- The program that is asked. -/
def measurer : Text := "tput"

/-- How it is asked for the columns or the lines. -/
def measuring (around : Surroundings) (what : Text) : Launch :=
  { program := measurer, arguments := [what], cwd := around.directory,
    environment := around.environment, clock := around.clock, input := [], terminal := false,
    limit := none }

/-- Asks for the columns or the lines of the terminal. A count of nothing is no answer. -/
def ask (host : Host) (s : Session) (around : Surroundings) (what : Text) :
    Session × Except Crash (Option Nat) :=
  match host s.tree (measuring around what) with
  | .error _ => (s, .ok none)
  | .ok r =>
    ({ s with tree := r.tree, interrupt := s.interrupt.arrive r.interrupt },
      (countIn r.out).map fun n => if n = 0 then none else some n)

/-- The columns of the terminal. An answer counts only where the lines are answered as well. -/
def measure (host : Host) (s : Session) (around : Surroundings) : Session × Except Crash Nat :=
  match around.columns with
  | some n => (s, .ok n)
  | none =>
    match s.ask host around "cols" with
    | (s, .error why) => (s, .error why)
    | (s, .ok columns) =>
      match s.ask host around "lines" with
      | (s, .error why) => (s, .error why)
      | (s, .ok lines) => (s, .ok ((lines.bind fun _ => columns).getD usualColumns))

end LineShell.Session

import LineShell.Outcome

/-! Numbers as the shell works them out: none is below zero or beyond its limit, and none comes of
a division by zero. -/

namespace LineShell.Count

/-- What is left of a number. -/
def less (n taken : Nat) : Except Crash Nat :=
  if taken ≤ n then .ok (n - taken) else .error .difference

/-- How often a number goes into another one. -/
def share (n size : Nat) : Except Crash Nat :=
  if size = 0 then .error .quotient else .ok (n / size)

/-- A number with something added, below a limit. -/
def more (limit n added : Nat) : Except Crash Nat :=
  if n + added < limit then .ok (n + added) else .error .sum

theorem less_of_le {n taken : Nat} (h : taken ≤ n) : less n taken = .ok (n - taken) :=
  if_pos h

theorem share_of_pos {n size : Nat} (h : 0 < size) : share n size = .ok (n / size) :=
  if_neg (Nat.pos_iff_ne_zero.mp h)

end LineShell.Count

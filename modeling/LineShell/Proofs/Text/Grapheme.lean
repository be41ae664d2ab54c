import LineShell.Text.Grapheme

/-! A text is cut into clusters with nothing lost, and typed text without backspaces is kept as it
is. -/

namespace LineShell.Text

/-- What has been read of a text, in clusters of which the last may go on. -/
def readOf (state : List Text × Option Cluster) : Text :=
  (state.2.toList.map (·.chars.reverse) ++ state.1).reverse.flatten

theorem flatten_clusters (t : Text) : (clusters t).flatten = t := by
  unfold clusters
  extract_lets step
  have hstep : ∀ state c, readOf (step state c) = readOf state ++ [c] := by
    rintro ⟨done, last⟩ c
    cases last with
    | none => simp [step, readOf, Cluster.begin]
    | some k =>
      cases htakes : k.takes c <;>
        simp [step, readOf, htakes, Cluster.begin, Cluster.push]
  have hfold : ∀ (t : Text) state, readOf (t.foldl step state) = readOf state ++ t := by
    intro t
    induction t with
    | nil => exact fun state => (List.append_nil _).symm
    | cons c t ih => exact fun state => by rw [List.foldl_cons, ih, hstep, List.append_assoc]; rfl
  exact hfold t ([], none)

theorem withoutBackspaces_eq_self {t : Text} (h : backspace ∉ t) : withoutBackspaces t = t := by
  unfold withoutBackspaces
  extract_lets step
  have hfold : ∀ (cs kept : List Text), (∀ c ∈ cs, c ≠ [backspace]) →
      cs.foldl step kept = cs.reverse ++ kept := by
    intro cs
    induction cs with
    | nil => exact fun _ _ => rfl
    | cons c cs ih =>
      intro kept hcs
      have hc : step kept c = c :: kept := if_neg (hcs c (by simp))
      rw [List.foldl_cons, hc, ih _ fun c' hc' => hcs c' (by simp [hc'])]
      simp
  rw [hfold, List.append_nil, List.reverse_reverse, flatten_clusters]
  rintro _ hc rfl
  exact h (flatten_clusters t ▸ List.mem_flatten_of_mem hc (List.mem_singleton_self _))

end LineShell.Text

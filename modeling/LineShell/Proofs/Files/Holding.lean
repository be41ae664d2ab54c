import LineShell.Proofs.Files.Write

/-! What a path holds, and what it holds once a file is opened and changed there, or at another path
that leads to the same file. -/

namespace LineShell

open Text (Bytes)

/-- What is seen at a path: nothing, a regular file with its bytes, or something else. -/
inductive Holding where
  | absent
  | file (bytes : Bytes)
  | other
  deriving DecidableEq, Repr

namespace Holding

/-- The bytes of a file; there are none where nothing is. -/
def bytes : Holding → Bytes
  | file bytes => bytes
  | _ => []

end Holding

namespace FileTree

/-- What a path holds when links are followed. -/
def holding (t : FileTree) (f : Place) : Holding :=
  match t.find true f with
  | .ok (.entry _ (.file id)) => t.files[id]?.elim .other fun data => .file data.bytes
  | .ok (.entry ..) => .other
  | .ok (.vacant ..) | .error _ => .absent

/-- Two paths that lead to the same: to one place, or to one file under two names. -/
def Same (t : FileTree) (p f : Place) : Prop :=
  t.find true p = t.find true f ∨
    ∃ l k id, t.find true p = .ok (.entry l (.file id)) ∧ t.find true f = .ok (.entry k (.file id))

theorem Same.refl (t : FileTree) (f : Place) : t.Same f f :=
  .inl rfl

section Change

variable {t t' : FileTree} {p f : Place} {now : Time} {change : FileData → FileData}

theorem holding_of_find {l : Location} {id : Nat} {data : FileData}
    (hf : t.find true f = .ok (.entry l (.file id))) (hdata : t.files[id]? = some data) :
    t.holding f = .file data.bytes := by
  simp only [holding, hf, hdata, Option.elim]

theorem Same.find_file {l : Location} {id : Nat} (h : t.Same p f)
    (hp : t.find true p = .ok (.entry l (.file id))) :
    ∃ k, t.find true f = .ok (.entry k (.file id)) := by
  rcases h with h | ⟨l', k, id', hp', hf⟩
  · exact ⟨l, h ▸ hp⟩
  · rw [hp] at hp'
    cases hp'
    exact ⟨k, hf⟩

theorem Same.find_eq {target : Target} (h : t.Same p f) (hp : t.find true p = .ok target)
    (hfile : ∀ l id, target ≠ .entry l (.file id)) : t.find true f = .ok target := by
  rcases h with h | ⟨l, k, id, hp', -⟩
  · exact h ▸ hp
  · rw [hp] at hp'
    cases hp'
    exact absurd rfl (hfile l id)

/-- A file that is opened for a change holds what the path held, and the path holds what the change
makes of it. -/
theorem holding_changeAt (hsame : t.Same p f) (hregular : t.holding f ≠ .other)
    (h : t.changeAt now p change = .ok t') :
    ∃ data, data.bytes = (t.holding f).bytes ∧ t'.holding f = .file (change data).bytes := by
  rw [changeAt] at h
  split at h
  case h_1 => cases h
  case h_2 t₁ id hopen =>
    cases h
    rcases openForWriting_cases hopen with ⟨l, id', hp, hgrants, rfl, hid⟩ |
      ⟨_, _, -, -, -, -, hid⟩ | ⟨parent, name, hp, -, rfl, hid⟩
    · cases hid
      obtain ⟨data, hdata, -⟩ := exists_of_grants hgrants
      obtain ⟨k, hf⟩ := hsame.find_file hp
      refine ⟨data, by rw [holding_of_find hf hdata]; rfl, ?_⟩
      exact holding_of_find (find_changeFile hf id change) (by simp [files_changeFile, hdata])
    · cases hid
    · cases hid
      have hf := hsame.find_eq hp (by rintro _ _ ⟨⟩)
      have hfree := find_holds hf
      refine ⟨emptyFile now, by simp only [holding, hf]; rfl, ?_⟩
      have hnew := find_filled (newFile_within hfree (emptyFile now)) hf
        (newFile_at? hfree _ []) (by simp [Node.isLink])
      refine holding_of_find (find_changeFile hnew _ change) ?_
      simp [files_changeFile, newFile, changeDir]
  case h_3 t₁ hopen =>
    rcases openForWriting_cases hopen with ⟨_, _, -, -, -, hid⟩ | ⟨l, n, hp, hfile, -, -, -⟩ |
      ⟨_, _, -, -, -, hid⟩
    · cases hid
    · have hf := hsame.find_eq hp (by rintro _ id ⟨⟩; exact hfile id rfl)
      refine absurd ?_ hregular
      cases n with
      | file id => exact absurd rfl (hfile id)
      | _ => simp only [holding, hf]
    · cases hid

end Change

end FileTree

end LineShell

import LineShell.Failure

/-! What comes to an answer: steps one after another, and the end of a line. -/

namespace LineShell

namespace Except

variable {α β ε : Type}

/-- Two steps come to an answer if the first one does, and the second one does from there. -/
theorem exists_bind_eq_ok_iff {x : Except ε α} {f : α → Except ε β} :
    (∃ b, (x >>= f) = .ok b) ↔ ∃ a, x = .ok a ∧ ∃ b, f a = .ok b := by
  cases x with
  | error e => exact iff_of_false (by rintro ⟨_, ⟨⟩⟩) (by rintro ⟨_, ⟨⟩, -⟩)
  | ok a => exact ⟨fun h => ⟨a, rfl, h⟩, by rintro ⟨_, ⟨⟩, h⟩; exact h⟩

theorem exists_map_eq_ok_iff {x : Except ε α} {f : α → β} :
    (∃ b, x.map f = .ok b) ↔ ∃ a, x = .ok a := by
  cases x with
  | error e => exact iff_of_false (by rintro ⟨_, ⟨⟩⟩) (by rintro ⟨_, ⟨⟩⟩)
  | ok a => exact iff_of_true ⟨_, rfl⟩ ⟨a, rfl⟩

/-- Steps that each come to an answer come to one all together. -/
theorem exists_mapM_eq_ok (f : α → Except ε β) (items : List α)
    (h : ∀ a ∈ items, ∃ b, f a = .ok b) : ∃ bs, items.mapM f = .ok bs := by
  induction items with
  | nil => exact ⟨[], rfl⟩
  | cons a items ih =>
    rw [List.forall_mem_cons] at h
    obtain ⟨⟨b, hb⟩, hitems⟩ := h
    obtain ⟨bs, hbs⟩ := ih hitems
    exact ⟨b :: bs, by rw [List.mapM_cons, hb, hbs]; rfl⟩

theorem mapM_eq_ok {f : α → Except ε β} {g : α → β} {items : List α}
    (h : ∀ a ∈ items, f a = .ok (g a)) : items.mapM f = .ok (items.map g) := by
  induction items with
  | nil => rfl
  | cons a items ih =>
    rw [List.forall_mem_cons] at h
    rw [List.mapM_cons, h.1, ih h.2]
    rfl

/-- Steps come to the first failure among them. -/
theorem mapM_eq_error {f : α → Except ε β} {front : List α} {a : α} {e : ε}
    (hfront : ∀ b ∈ front, ∃ c, f b = .ok c) (ha : f a = .error e) (back : List α) :
    (front ++ a :: back).mapM f = .error e := by
  obtain ⟨bs, hbs⟩ := exists_mapM_eq_ok f front hfront
  rw [List.mapM_append, List.mapM_cons, hbs, ha]
  rfl

/-- If steps come to an answer, it is one of some kind. -/
def All (P : α → Prop) (x : Except ε α) : Prop :=
  ∀ a, x = .ok a → P a

theorem All.ok {P : α → Prop} {a : α} (h : P a) : All P (.ok a : Except ε α) := by
  rintro _ ⟨⟩
  exact h

theorem All.bind {P : α → Prop} {Q : β → Prop} {x : Except ε α} {f : α → Except ε β}
    (hx : All P x) (hf : ∀ a, P a → All Q (f a)) : All Q (x >>= f) := by
  cases x with
  | error e => rintro _ ⟨⟩
  | ok a => exact hf a (hx a rfl)

theorem All.mapM {P : β → Prop} {f : α → Except ε β} {items : List α}
    (h : ∀ a ∈ items, All P (f a)) : All (∀ b ∈ ·, P b) (items.mapM f) := by
  induction items with
  | nil => exact .ok (by simp)
  | cons a items ih =>
    rw [List.forall_mem_cons] at h
    rw [List.mapM_cons]
    refine h.1.bind fun b hb => (ih h.2).bind fun bs hbs => .ok ?_
    exact List.forall_mem_cons.mpr ⟨hb, hbs⟩

/-- Two runs that fail alike, or come to answers that go together. -/
inductive Matches (R : α → β → Prop) : Except ε α → Except ε β → Prop
  | ok {a : α} {b : β} (h : R a b) : Matches R (.ok a) (.ok b)
  | error (e : ε) : Matches R (.error e) (.error e)

namespace Matches

variable {α' β' : Type} {R : α → β → Prop} {S : α' → β' → Prop}

theorem bind {x : Except ε α} {y : Except ε β} {f : α → Except ε α'} {g : β → Except ε β'}
    (h : Matches R x y) (hf : ∀ a b, R a b → Matches S (f a) (g b)) :
    Matches S (x >>= f) (y >>= g) := by
  cases h with
  | ok h => exact hf _ _ h
  | error e => exact .error e

theorem same {P : α → Prop} {x : Except ε α} (h : All P x) :
    Matches (fun a b => a = b ∧ P a) x x := by
  cases x with
  | ok a => exact .ok ⟨rfl, h a rfl⟩
  | error e => exact .error e

/-- What the second run comes to is turned into what the first one comes to. -/
theorem map_eq {x : Except ε α} {y : Except ε β} (h : Matches R x y) {f : β → α}
    (hf : ∀ a b, R a b → f b = a) : y.map f = x := by
  cases h with
  | ok h => exact congrArg _ (hf _ _ h)
  | error e => rfl

end Matches

end Except

namespace Ending

/-- Whether a line has come to an outcome. -/
def IsAnswered (e : Ending) : Prop :=
  ∃ o, e = .answered o

/-- The ending of what crashes, or ends the whole shell, under a condition each. -/
inductive EndsAs (crashes aborts : Prop) : Ending → Prop
  | answered {o : Outcome} (hc : ¬crashes) (ha : ¬aborts) : EndsAs crashes aborts (.answered o)
  | crashed {why : Crash} (hc : crashes) (ha : ¬aborts) : EndsAs crashes aborts (.crashed why)
  | aborted {bytes : Nat} (hc : ¬crashes) (ha : aborts) : EndsAs crashes aborts (.aborted bytes)

namespace EndsAs

variable {crashes aborts crashes' aborts' : Prop} {e : Ending}

theorem isAnswered_iff (h : EndsAs crashes aborts e) : e.IsAnswered ↔ ¬crashes ∧ ¬aborts := by
  cases h with
  | answered hc ha => exact iff_of_true ⟨_, rfl⟩ ⟨hc, ha⟩
  | crashed hc ha => exact iff_of_false (by rintro ⟨_, ⟨⟩⟩) fun hnot => hnot.1 hc
  | aborted hc ha => exact iff_of_false (by rintro ⟨_, ⟨⟩⟩) fun hnot => hnot.2 ha

theorem isAborted_iff (h : EndsAs crashes aborts e) : e.isAborted = true ↔ aborts := by
  cases h with
  | answered hc ha => exact iff_of_false nofun ha
  | crashed hc ha => exact iff_of_false nofun ha
  | aborted hc ha => exact iff_of_true rfl ha

theorem not_aborts (h : EndsAs crashes aborts e) (hcrashes : crashes) : ¬aborts := by
  cases h with
  | answered hc ha => exact ha
  | crashed hc ha => exact ha
  | aborted hc ha => exact absurd hcrashes hc

theorem congr (h : EndsAs crashes aborts e) (hcrashes : crashes' ↔ crashes)
    (haborts : aborts' ↔ aborts) : EndsAs crashes' aborts' e := by
  rwa [propext hcrashes, propext haborts]

/-- An outcome follows whatever the conditions are, as long as neither holds. -/
theorem of_answer (r : Except Crash Answer) :
    EndsAs (¬∃ a, r = .ok a) False (ofAnswer r) := by
  cases r with
  | ok a => exact .answered (not_not_intro ⟨a, rfl⟩) not_false
  | error why => exact .crashed (by rintro ⟨_, ⟨⟩⟩) not_false

end EndsAs

end Ending

end LineShell

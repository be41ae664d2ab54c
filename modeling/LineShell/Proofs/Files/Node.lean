import LineShell.Files.Change
import Mathlib.Data.List.Infix

/-! Nodes looked at by location. A change at one location is seen at it, below it and above it,
and nowhere else. -/

namespace LineShell.Node

theorem entry?_of_not_isDir {d : Node} (h : d.isDir = false) (k : Name) : d.entry? k = none := by
  cases d <;> first | rfl | cases h

theorem isDir_of_entry? {d n : Node} {k : Name} (h : d.entry? k = some n) : d.isDir = true := by
  cases hd : d.isDir with
  | true => rfl
  | false => rw [entry?_of_not_isDir hd] at h; cases h

private theorem lookup_cons (a k : Name) (m : Node) (es : List (Name × Node)) :
    List.lookup k ((a, m) :: es) = if k = a then some m else List.lookup k es := by
  rw [List.lookup_cons]
  by_cases h : k = a
  · simp [h]
  · have hb : (k == a) = false := by simpa using h
    simp [h, hb]

private theorem lookup_putEntry (name k : Name) (n : Node) (es : List (Name × Node)) :
    List.lookup k (putEntry name n es) = if k = name then some n else List.lookup k es := by
  induction es with
  | nil => exact lookup_cons name k n []
  | cons e es ih =>
    obtain ⟨a, m⟩ := e
    rw [putEntry]
    by_cases ha : a = name
    · rw [if_pos ha, ha, lookup_cons, lookup_cons]
      split <;> rfl
    · rw [if_neg ha, lookup_cons, lookup_cons, ih]
      by_cases hka : k = a
      · simp [hka, ha]
      · simp [hka]

private theorem lookup_filter (name k : Name) (es : List (Name × Node)) :
    List.lookup k (es.filter (·.1 ≠ name)) = if k = name then none else List.lookup k es := by
  induction es with
  | nil => exact (ite_self _).symm
  | cons e es ih =>
    obtain ⟨a, m⟩ := e
    by_cases ha : a = name
    · rw [List.filter_cons_of_neg (by simpa using ha), ih, lookup_cons, ha]
      split <;> rfl
    · rw [List.filter_cons_of_pos (by simpa using ha), lookup_cons, lookup_cons, ih]
      by_cases hka : k = a
      · simp [hka, ha]
      · simp [hka]

private theorem lookup_map (f : Node → Node) (name k : Name) (es : List (Name × Node)) :
    List.lookup k (es.map fun (a, n) => (a, if a = name then f n else n)) =
      if k = name then (List.lookup k es).map f else List.lookup k es := by
  induction es with
  | nil => exact (ite_self _).symm
  | cons e es ih =>
    obtain ⟨a, m⟩ := e
    rw [List.map_cons, lookup_cons, lookup_cons, ih]
    by_cases hka : k = a
    · subst hka
      by_cases hk : k = name <;> simp [hk]
    · simp [hka]

theorem entry?_put {d : Node} (hd : d.isDir = true) (name k : Name) (n : Node) :
    entry? (d.put name n) k = if k = name then some n else d.entry? k := by
  cases d with
  | dir mode changed es => exact lookup_putEntry name k n es
  | _ => cases hd

theorem entry?_erase (d : Node) (name k : Name) :
    entry? (d.erase name) k = if k = name then none else d.entry? k := by
  cases d with
  | dir mode changed es => exact lookup_filter name k es
  | _ => exact (ite_self _).symm

theorem entry?_changeDown (f : Node → Node) (name k : Name) (rest : List Name) (d : Node) :
    entry? (d.changeDown f (name :: rest)) k =
      if k = name then (d.entry? k).map (changeDown f rest) else d.entry? k := by
  cases d with
  | dir mode changed es => exact lookup_map (changeDown f rest) name k es
  | _ => exact (ite_self _).symm

theorem down_append (xs ys : List Name) (n : Node) :
    n.down (xs ++ ys) = (n.down xs).bind (down ys) := by
  induction xs generalizing n with
  | nil => rfl
  | cons x xs ih =>
    simp only [List.cons_append, down]
    cases n.entry? x with
    | none => rfl
    | some m => exact ih m

theorem at?_append (x base : Location) (n : Node) :
    n.at? (x ++ base) = (n.at? base).bind (·.at? x) := by
  simp only [at?, List.reverse_append, down_append]

theorem at?_singleton (name : Name) (n : Node) : n.at? [name] = n.entry? name := by
  simp [at?, down]

theorem at?_cons (name : Name) (base : Location) (n : Node) :
    n.at? (name :: base) = (n.at? base).bind fun m => m.entry? name := by
  rw [← List.singleton_append, at?_append]
  simp only [at?_singleton]

/-- Below nothing there is nothing. -/
theorem at?_below_none {root : Node} {base : Location} (h : root.at? base = none) (x : Location) :
    root.at? (x ++ base) = none := by
  rw [at?_append, h]
  rfl

/-- What is there does not lie at or below a place where nothing is. -/
theorem not_suffix_of_none {root n : Node} {base l : Location} (h : root.at? base = none)
    (hn : root.at? l = some n) : ¬ base <:+ l := by
  rintro ⟨x, rfl⟩
  rw [at?_below_none h] at hn
  cases hn

private theorem down_changeDown_below (f : Node → Node) (way x : List Name) (n : Node) :
    (n.changeDown f way).down (way ++ x) = (n.down way).bind fun m => (f m).down x := by
  induction way generalizing n with
  | nil => simp [changeDown, down]
  | cons name way ih =>
    simp only [List.cons_append, down, entry?_changeDown, if_pos]
    cases n.entry? name with
    | none => rfl
    | some m => exact ih m

private theorem down_changeDown_above (f : Node → Node) (way x : List Name) (n : Node) :
    (n.changeDown f (way ++ x)).down way = (n.down way).map (changeDown f x) := by
  induction way generalizing n with
  | nil => simp [down]
  | cons name way ih =>
    simp only [List.cons_append, down, entry?_changeDown, if_pos]
    cases n.entry? name with
    | none => rfl
    | some m => exact ih m

private theorem down_changeDown_apart (f : Node → Node) (way other : List Name) (n : Node)
    (h₁ : ¬ way <+: other) (h₂ : ¬ other <+: way) :
    (n.changeDown f way).down other = n.down other := by
  induction way generalizing n other with
  | nil => exact absurd (List.nil_prefix) h₁
  | cons name way ih =>
    cases other with
    | nil => exact absurd (List.nil_prefix) h₂
    | cons k other =>
      simp only [down, entry?_changeDown]
      split
      case isFalse => rfl
      case isTrue hk =>
        subst hk
        simp only [List.cons_prefix_cons, true_and] at h₁ h₂
        cases n.entry? k with
        | none => rfl
        | some m => exact ih other m h₁ h₂

/-- Two locations neither of which lies at or below the other. -/
def Apart (a b : Location) : Prop :=
  ¬ a <:+ b ∧ ¬ b <:+ a

instance (a b : Location) : Decidable (Apart a b) := by
  unfold Apart; infer_instance

theorem at?_changeAt_below (f : Node → Node) (x base : Location) (n : Node) :
    (n.changeAt f base).at? (x ++ base) = (n.at? base).bind fun m => (f m).at? x := by
  simp only [at?, changeAt, List.reverse_append]
  exact down_changeDown_below f base.reverse x.reverse n

theorem at?_changeAt_self (f : Node → Node) (base : Location) (n : Node) :
    (n.changeAt f base).at? base = (n.at? base).map f := by
  have h := at?_changeAt_below f [] base n
  rw [List.nil_append] at h
  rw [h]
  cases n.at? base <;> rfl

theorem at?_changeAt_above (f : Node → Node) (x base : Location) (n : Node) :
    (n.changeAt f (x ++ base)).at? base = (n.at? base).map (changeAt f x) := by
  simp only [at?, changeAt, List.reverse_append]
  exact down_changeDown_above f base.reverse x.reverse n

theorem at?_changeAt_apart (f : Node → Node) {base l : Location} (h : Apart base l) (n : Node) :
    (n.changeAt f base).at? l = n.at? l := by
  refine down_changeDown_apart f base.reverse l.reverse n ?_ ?_
  · exact fun hp => h.1 (List.reverse_prefix.mp hp)
  · exact fun hp => h.2 (List.reverse_prefix.mp hp)

/-- Nodes that a walk cannot tell apart: the same file, the same link, or directories with the
same permissions. -/
def Alike : Node → Node → Prop
  | .dir mode _ _, .dir mode' _ _ => mode = mode'
  | n, m => n = m

@[refl] theorem Alike.refl (n : Node) : Alike n n := by
  cases n <;> rfl

theorem Alike.trans {a b c : Node} (h : Alike a b) (h' : Alike b c) : Alike a c := by
  cases a <;> cases b <;> cases c <;> simp_all [Alike]

theorem Alike.symm {a b : Node} (h : Alike a b) : Alike b a := by
  cases a <;> cases b <;> simp_all [Alike]

theorem Alike.eq {n m : Node} (h : Alike n m) (hn : n.isDir = false) : n = m := by
  cases n <;> cases m <;> simp_all [Alike, isDir]

theorem Alike.isDir {n m : Node} (h : Alike n m) : n.isDir = m.isDir := by
  cases n <;> cases m <;> simp_all [Alike, Node.isDir]

theorem Alike.isLink {n m : Node} (h : Alike n m) : n.isLink = m.isLink := by
  cases n <;> cases m <;> simp_all [Alike, Node.isLink]

theorem Alike.grants {n m : Node} (h : Alike n m) (access : Access) :
    n.grants access = m.grants access := by
  cases n <;> cases m <;> simp_all [Alike, Node.grants]

/-- Whatever is below the first node is at the same location below the second. -/
def Within (n m : Node) : Prop :=
  ∀ l k, n.at? l = some k → ∃ k', m.at? l = some k' ∧ Alike k k'

@[refl] theorem Within.refl (n : Node) : Within n n :=
  fun _ k hk => ⟨k, hk, .refl k⟩

theorem Within.trans {a b c : Node} (h : Within a b) (h' : Within b c) : Within a c := by
  intro l k hk
  obtain ⟨k', hk', hkk'⟩ := h l k hk
  obtain ⟨k'', hk'', hkk''⟩ := h' l k' hk'
  exact ⟨k'', hk'', hkk'.trans hkk''⟩

theorem Within.at?_eq {n m : Node} (h : Within n m) {l : Location} {k : Node}
    (hk : n.at? l = some k) (hd : k.isDir = false) : m.at? l = some k := by
  obtain ⟨k', hk', hkk'⟩ := h l k hk
  rwa [hkk'.eq hd]

theorem put_alike (d : Node) (name : Name) (n : Node) : d.Alike (d.put name n) := by
  cases d <;> rfl

theorem erase_alike (d : Node) (name : Name) : d.Alike (d.erase name) := by
  cases d <;> rfl

theorem changeDown_alike (f : Node → Node) (name : Name) (rest : List Name) (n : Node) :
    n.Alike (n.changeDown f (name :: rest)) := by
  cases n <;> rfl

theorem changeAt_alike (f : Node → Node) {x : Location} (hx : x ≠ []) (n : Node) :
    n.Alike (n.changeAt f x) := by
  rw [changeAt]
  cases hr : x.reverse with
  | nil => exact absurd (List.reverse_eq_nil_iff.mp hr) hx
  | cons name rest => exact changeDown_alike f name rest n

theorem rel_of_eq {a b : Option Node} (h : a = b) : Option.Rel Alike a b := by
  subst h
  cases a with
  | none => exact .none
  | some n => exact .some (.refl n)

theorem rel_symm {a b : Option Node} (h : Option.Rel Alike a b) :
    Option.Rel Alike b a := by
  cases h with
  | none => exact .none
  | some h => exact .some h.symm

theorem rel_trans {a b c : Option Node} (h : Option.Rel Alike a b)
    (h' : Option.Rel Alike b c) : Option.Rel Alike a c := by
  cases h with
  | none => exact h'
  | some h =>
    cases h' with
    | some h' => exact .some (h.trans h')

/-- The nodes that two trees have at a location are alike, or neither tree has one there. -/
def AgreeAt (root root' : Node) (l : Location) : Prop :=
  Option.Rel Alike (root.at? l) (root'.at? l)

theorem AgreeAt.of_eq {root root' : Node} {l : Location} (h : root.at? l = root'.at? l) :
    AgreeAt root root' l :=
  rel_of_eq h

theorem AgreeAt.symm {root root' : Node} {l : Location} (h : AgreeAt root root' l) :
    AgreeAt root' root l :=
  rel_symm h

theorem AgreeAt.alike {root root' n : Node} {l : Location} (h : AgreeAt root root' l)
    (hn : root.at? l = some n) : ∃ n', root'.at? l = some n' ∧ n.Alike n' := by
  rw [AgreeAt, hn] at h
  cases hn' : root'.at? l with
  | none => rw [hn'] at h; cases h
  | some n' =>
    rw [hn'] at h
    cases h with
    | some ha => exact ⟨n', rfl, ha⟩

/-- A change of one entry of a directory is not seen at locations apart from that entry. -/
theorem at?_changeAt_entry_apart {f : Node → Node} {name : Name}
    (hentry : ∀ d k, k ≠ name → entry? (f d) k = d.entry? k) {parent l : Location}
    (h : Apart (name :: parent) l) (root : Node) :
    (root.changeAt f parent).at? l = root.at? l := by
  by_cases hbelow : parent <:+ l
  · obtain ⟨x, rfl⟩ := hbelow
    cases x using List.reverseRecOn with
    | nil => exact absurd (List.suffix_cons name parent) h.2
    | append_singleton x k _ =>
      have hk : k ≠ name := by
        rintro rfl
        exact h.1 ⟨x, by simp⟩
      rw [at?_changeAt_below, at?_append]
      simp only [at?_append, at?_singleton, hentry _ k hk]
  · exact at?_changeAt_apart f ⟨hbelow, fun habove => h.2 (habove.trans (List.suffix_cons ..))⟩ root

/-- It is seen at that entry and below it only, but for what directories above it hold. -/
theorem at?_changeAt_elsewhere {f : Node → Node} {name : Name} (hf : ∀ d, Alike d (f d))
    (hentry : ∀ d k, k ≠ name → entry? (f d) k = d.entry? k) {parent l : Location}
    (hl : ¬ (name :: parent) <:+ l) (root : Node) : AgreeAt root (root.changeAt f parent) l := by
  by_cases habove : l <:+ name :: parent
  · obtain rfl | ⟨x, rfl⟩ := List.suffix_cons_iff.mp habove
    · exact absurd (List.suffix_refl _) hl
    · by_cases hx : x = []
      · subst hx
        rw [AgreeAt, List.nil_append, at?_changeAt_self]
        cases root.at? l with
        | none => exact .none
        | some d => exact .some (hf d)
      · rw [AgreeAt, at?_changeAt_above]
        cases root.at? l with
        | none => exact .none
        | some d => exact .some (changeAt_alike f hx d)
  · exact .of_eq (at?_changeAt_entry_apart hentry ⟨hl, habove⟩ root).symm

theorem entry?_put_of_ne (d : Node) {name k : Name} (hk : k ≠ name) (n : Node) :
    entry? (d.put name n) k = d.entry? k := by
  cases hd : d.isDir with
  | true => rw [entry?_put hd, if_neg hk]
  | false => rw [entry?_of_not_isDir hd, entry?_of_not_isDir ((put_alike d name n).isDir ▸ hd)]

theorem at?_put_elsewhere {name : Name} {parent l : Location} (hl : ¬ (name :: parent) <:+ l)
    (root n : Node) : AgreeAt root (root.changeAt (·.put name n) parent) l :=
  at?_changeAt_elsewhere (fun d => put_alike d name n) (fun d _ hk => entry?_put_of_ne d hk n) hl
    root

theorem at?_erase_elsewhere {name : Name} {parent l : Location} (hl : ¬ (name :: parent) <:+ l)
    (root : Node) : AgreeAt root (root.changeAt (·.erase name) parent) l :=
  at?_changeAt_elsewhere (fun d => erase_alike d name)
    (fun d k hk => by rw [entry?_erase, if_neg hk]) hl root

theorem at?_put_apart {name : Name} {parent l : Location} (h : Apart (name :: parent) l)
    (root n : Node) : (root.changeAt (·.put name n) parent).at? l = root.at? l :=
  at?_changeAt_entry_apart (fun d _ hk => entry?_put_of_ne d hk n) h root

/-- What was put into a directory is there with all that is in it. -/
theorem at?_put {root d : Node} {parent : Location} (hd : root.at? parent = some d)
    (hdir : d.isDir = true) (name : Name) (n : Node) (x : Location) :
    (root.changeAt (·.put name n) parent).at? (x ++ name :: parent) = n.at? x := by
  rw [at?_append, at?_cons, at?_changeAt_self, hd]
  simp [entry?_put hdir]

theorem at?_erase (root : Node) (parent : Location) (name : Name) (x : Location) :
    (root.changeAt (·.erase name) parent).at? (x ++ name :: parent) = none := by
  refine at?_below_none ?_ x
  rw [at?_cons, at?_changeAt_self]
  cases root.at? parent with
  | none => rfl
  | some d => simp [entry?_erase]

/-- A tree with something new at a free place holds all that it held. -/
theorem Within.put {root : Node} {parent : Location} {name : Name}
    (hfree : root.at? (name :: parent) = none) (n : Node) :
    root.Within (root.changeAt (·.put name n) parent) := by
  intro l k hk
  exact (at?_put_elsewhere (not_suffix_of_none hfree hk) root n).alike hk

/-- A tree holds all that is left of it without an entry. -/
theorem Within.erase (root : Node) (parent : Location) (name : Name) :
    (root.changeAt (·.erase name) parent).Within root := by
  intro l k hk
  have hl := not_suffix_of_none (at?_erase root parent name []) hk
  exact (at?_erase_elsewhere hl root).symm.alike hk

end LineShell.Node

import LineShell.Proofs.Files.Copy

/-! Trees that grow. New things come to free places only, with nothing in them, so that all that was
there is there, and what else is there has come. -/

namespace LineShell

namespace Node

/-- Every directory has each of its names once. -/
def Named (root : Node) : Prop :=
  ∀ l n, root.at? l = some n → (n.entries.map Prod.fst).Nodup

/-- A tree that came about when one thing after another was put to a free place, each of a kind that
may come there. -/
inductive Grown (Q : Location → Node → Prop) (root : Node) : Node → Prop where
  | refl : Grown Q root root
  | put {root' n : Node} {parent : Location} {name : Name} (h : Grown Q root root')
    (hfree : FileTree.Target.Holds root' (.vacant parent name)) (hleaf : n.entries = [])
    (hn : Q (name :: parent) n) : Grown Q root (root'.changeAt (·.put name n) parent)

theorem at?_of_leaf {n : Node} (hleaf : n.entries = []) {x : Location} (hx : x ≠ []) :
    n.at? x = none := by
  cases x using List.reverseRecOn with
  | nil => exact absurd rfl hx
  | append_singleton x a _ =>
    rw [at?_append, at?_singleton, entry?, hleaf]
    rfl

theorem eq_of_at?_leaf {n m : Node} (hleaf : n.entries = []) {x : Location}
    (h : n.at? x = some m) : x = [] ∧ m = n := by
  by_cases hx : x = []
  · subst hx
    exact ⟨rfl, (Option.some.inj h).symm⟩
  · rw [at?_of_leaf hleaf hx] at h
    cases h

section Above

variable {root n : Node} {l : Location} {a : Name}

/-- What is somewhere stands in a directory. -/
theorem exists_above (h : root.at? (a :: l) = some n) :
    ∃ d, root.at? l = some d ∧ d.isDir = true ∧ d.entry? a = some n := by
  rw [at?_cons] at h
  obtain ⟨d, hd, hentry⟩ := Option.bind_eq_some_iff.mp h
  exact ⟨d, hd, isDir_of_entry? hentry, hentry⟩

theorem isDir_above {x : Location} (h : root.at? (x ++ l) = some n) (hdir : n.isDir = true) :
    ∃ d, root.at? l = some d ∧ d.isDir = true := by
  induction x generalizing n with
  | nil => exact ⟨n, h, hdir⟩
  | cons a x ih =>
    obtain ⟨d, hd, hddir, -⟩ := exists_above h
    exact ih hd hddir

/-- What is below locations that are apart is apart. -/
theorem Apart.below {a b : Location} (h : Apart a b) (x y : Location) :
    Apart (x ++ a) (y ++ b) := by
  have hmeet {l : Location} (ha : a <:+ l) (hb : b <:+ l) : False :=
    (List.suffix_or_suffix_of_suffix ha hb).elim h.1 h.2
  exact ⟨fun hl => hmeet ((List.suffix_append x a).trans hl) (List.suffix_append y b),
    fun hl => hmeet (List.suffix_append x a) ((List.suffix_append y b).trans hl)⟩

end Above

section Names

variable {root n d : Node} {parent : Location} {name : Name}

theorem notMem_names_of_entry? (h : d.entry? name = none) : name ∉ d.entries.map Prod.fst := by
  intro hmem
  obtain ⟨e, he, rfl⟩ := List.mem_map.mp hmem
  have := List.lookup_eq_none_iff.mp h e he
  simp at this

/-- Where names stand once, what is listed is what is looked up. -/
theorem entry?_of_mem (hnames : (d.entries.map Prod.fst).Nodup) (h : (name, n) ∈ d.entries) :
    d.entry? name = some n := by
  rw [Node.entry?]
  generalize d.entries = es at hnames h
  induction es with
  | nil => cases h
  | cons e es ih =>
    obtain ⟨k, m⟩ := e
    rw [List.map_cons, List.nodup_cons] at hnames
    rcases List.mem_cons.mp h with heq | hmem
    · cases heq
      simp
    · have hne : (name == k) = false := by
        rw [beq_eq_false_iff_ne]
        rintro rfl
        exact hnames.1 (List.mem_map.mpr ⟨_, hmem, rfl⟩)
      rw [List.lookup_cons, hne]
      exact ih hnames.2 hmem

theorem mem_of_entry? (h : d.entry? name = some n) : (name, n) ∈ d.entries := by
  obtain ⟨before, after, hsplit, -⟩ := List.lookup_eq_some_iff.mp h
  rw [hsplit]
  simp

/-- What is listed in a directory is what is there. -/
theorem Named.mem_entries_iff {l : Location} (h : root.Named) (hd : root.at? l = some d) :
    (name, n) ∈ d.entries ↔ root.at? (name :: l) = some n := by
  rw [at?_cons, hd]
  exact ⟨entry?_of_mem (h l d hd), mem_of_entry?⟩

/-- What is somewhere in a node is the node, or it is somewhere in one of the entries. -/
theorem at?_cases {x : Location} (h : d.at? x = some n) :
    (x = [] ∧ n = d) ∨ ∃ y e, x = y ++ [e.1] ∧ e ∈ d.entries ∧ e.2.at? y = some n := by
  cases x using List.reverseRecOn with
  | nil => exact .inl ⟨rfl, (Option.some.inj h).symm⟩
  | append_singleton y a _ =>
    rw [at?_append, at?_singleton] at h
    obtain ⟨m, hm, hn⟩ := Option.bind_eq_some_iff.mp h
    exact .inr ⟨y, (a, m), rfl, mem_of_entry? hm, hn⟩

private theorem names_putEntry (es : List (Name × Node)) (h : name ∉ es.map Prod.fst) (n : Node) :
    (putEntry name n es).map Prod.fst = es.map Prod.fst ++ [name] := by
  induction es with
  | nil => rfl
  | cons e es ih =>
    rw [List.map_cons, List.mem_cons, not_or] at h
    rw [putEntry, if_neg (Ne.symm h.1), List.map_cons, ih h.2]
    rfl

theorem names_changeAt (f : Node → Node) {x : Location} (hx : x ≠ []) (n : Node) :
    (n.changeAt f x).entries.map Prod.fst = n.entries.map Prod.fst := by
  rw [changeAt]
  cases hr : x.reverse with
  | nil => exact absurd (List.reverse_eq_nil_iff.mp hr) hx
  | cons name rest => cases n <;> simp [changeDown, entries]

theorem Named.put (h : root.Named) (hfree : FileTree.Target.Holds root (.vacant parent name))
    (hleaf : n.entries = []) : (root.changeAt (·.put name n) parent).Named := by
  obtain ⟨⟨d, hd, hdir, -⟩, -, hnone⟩ := hfree
  intro l k hk
  by_cases hbelow : (name :: parent) <:+ l
  · obtain ⟨x, rfl⟩ := hbelow
    rw [at?_put hd hdir] at hk
    obtain ⟨-, rfl⟩ := eq_of_at?_leaf hleaf hk
    simp [hleaf]
  · by_cases habove : l <:+ parent
    · obtain ⟨x, rfl⟩ := habove
      by_cases hx : x = []
      · subst hx
        rw [List.nil_append] at hd hk hnone
        rw [at?_changeAt_self, hd] at hk
        cases hk
        rw [at?_cons, hd] at hnone
        have hnew := notMem_names_of_entry? hnone
        have hold := h l d hd
        cases d with
        | dir mode changed es =>
          change ((putEntry name n es).map Prod.fst).Nodup
          rw [names_putEntry es hnew, List.nodup_append]
          refine ⟨hold, by simp, fun a ha b hb => ?_⟩
          rw [List.mem_singleton.mp hb]
          rintro rfl
          exact hnew ha
        | _ => cases hdir
      · rw [at?_changeAt_above, Option.map_eq_some_iff] at hk
        obtain ⟨m, hm, rfl⟩ := hk
        rw [names_changeAt _ hx]
        exact h l m hm
    · have happart : Apart (name :: parent) l := by
        refine ⟨hbelow, fun hl => ?_⟩
        rcases List.suffix_cons_iff.mp hl with rfl | hl
        · exact hbelow (List.suffix_refl _)
        · exact habove hl
      rw [at?_put_apart happart] at hk
      exact h l k hk

theorem named_of_leaf (h : n.entries = []) : n.Named := by
  intro l k hk
  obtain ⟨-, rfl⟩ := eq_of_at?_leaf h hk
  simp [h]

theorem Named.dir {mode : Nat} {changed : Time} {entries : List (Name × Node)}
    (hnames : (entries.map Prod.fst).Nodup) (h : ∀ e ∈ entries, e.2.Named) :
    (Node.dir mode changed entries).Named := by
  intro l k hk
  rcases at?_cases hk with ⟨-, rfl⟩ | ⟨x, e, -, he, hk⟩
  · exact hnames
  · exact h e he x k hk

end Names

namespace Grown

variable {Q : Location → Node → Prop} {root root' root'' n : Node} {l : Location}

theorem trans (h : Grown Q root root') (h' : Grown Q root' root'') : Grown Q root root'' := by
  induction h' with
  | refl => exact h
  | put _ hfree hleaf hn ih => exact .put ih hfree hleaf hn

theorem mono {R : Location → Node → Prop} (h : Grown Q root root') (hR : ∀ l n, Q l n → R l n) :
    Grown R root root' := by
  induction h with
  | refl => exact .refl
  | put _ hfree hleaf hn ih => exact .put ih hfree hleaf (hR _ _ hn)

theorem within (h : Grown Q root root') : root.Within root' := by
  induction h with
  | refl => exact .refl root
  | put _ hfree _ _ ih => exact ih.trans (.put hfree.2.2 _)

theorem named (h : Grown Q root root') (hnamed : root.Named) : root'.Named := by
  induction h with
  | refl => exact hnamed
  | put _ hfree hleaf _ ih => exact ih.put hfree hleaf

/-- What is there was there, or it has come there. -/
theorem old_or_new (h : Grown Q root root') (hn : root'.at? l = some n) :
    (∃ m, root.at? l = some m ∧ m.Alike n) ∨
      root.at? l = none ∧ ∃ m, Q l m ∧ m.Alike n := by
  induction h generalizing n with
  | refl => exact .inl ⟨n, hn, .refl n⟩
  | @put root' m parent name h hfree hleaf hm ih =>
    obtain ⟨d, hd, hdir, -⟩ := hfree.1
    by_cases hbelow : (name :: parent) <:+ l
    · obtain ⟨x, rfl⟩ := hbelow
      rw [at?_put hd hdir] at hn
      by_cases hx : x = []
      · subst hx
        cases hn
        refine .inr ⟨?_, _, hm, .refl _⟩
        by_contra hsome
        obtain ⟨k, hk⟩ := Option.ne_none_iff_exists'.mp hsome
        obtain ⟨k', hk', -⟩ := h.within _ k hk
        rw [List.nil_append, hfree.2.2] at hk'
        cases hk'
      · rw [at?_of_leaf hleaf hx] at hn
        cases hn
    · obtain ⟨n', hn', ha⟩ := (at?_put_elsewhere hbelow root' m).symm.alike hn
      refine (ih hn').imp ?_ ?_
      · rintro ⟨k, hk, hka⟩
        exact ⟨k, hk, hka.trans ha.symm⟩
      · rintro ⟨hnone, k, hk, hka⟩
        exact ⟨hnone, k, hk, hka.trans ha.symm⟩

end Grown

end Node

namespace FileTree

/-- A directory as it is made. -/
def emptyDir (now : Time) : Node :=
  .dir newDirMode now []

theorem createDir_eq_ok {t t' : FileTree} {now : Time} {p : Place}
    (h : t.createDir now p = .ok t') : ∃ parent name,
      t.find false p = .ok (.vacant parent name) ∧ t.mayChange parent = true ∧
        t' = t.changeDir parent (·.put name (emptyDir now)) := by
  rw [createDir] at h
  split at h
  case h_1 | h_2 => cases h
  case h_3 parent name hp =>
    split at h
    case isFalse => cases h
    case isTrue hmay =>
      cases h
      exact ⟨parent, name, hp, hmay, rfl⟩

/-- A copy of a file adds a file at most. -/
theorem copyFile_grown {t t' : FileTree} {now : Time} {source dest : Place}
    (h : t.copyFile now source dest = .ok t') :
    Node.Grown (fun _ n => ∃ id, n = .file id) t.root t'.root := by
  rw [copyFile] at h
  split at h
  case h_1 => cases h
  case h_2 =>
    split_ifs at h
    split at h
    case h_2 => cases h
    case h_1 a _ =>
      have hopened {t₁ : FileTree} {new : Option Nat}
          (hopen : t.openForWriting now dest = .ok (t₁, new)) :
          Node.Grown (fun _ n => ∃ id, n = .file id) t.root t₁.root := by
        obtain ⟨_, _, -, -, rfl, -⟩ | ⟨_, _, -, -, -, rfl, -⟩ | ⟨parent, name, hp, -, rfl, -⟩ :=
          openForWriting_cases hopen
        · exact .refl
        · exact .refl
        · exact .put .refl (find_holds hp) rfl ⟨_, rfl⟩
      split at h
      case h_1 => cases h
      case h_2 hopen =>
        cases h
        exact hopened hopen
      case h_3 hopen =>
        have hgrown := hopened hopen
        dsimp only at h
        split at h <;> cases h <;> exact hgrown

end FileTree

end LineShell

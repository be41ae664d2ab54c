import LineShell.Proofs.Files.Back

/-! Places below a directory. What a path leads to is found one name further down by a look into
that directory, and a path that leads below it first leads to it. -/

namespace LineShell

namespace Place

/-- A place further down, the last name first. -/
def down (p : Place) (r : Location) : Place :=
  { p with inside := r ++ p.inside }

theorem entry_down (p : Place) (a : Name) (r : Location) :
    (p.entry a).down r = p.down (r ++ [a]) :=
  congrArg (Place.mk p.path) (List.append_cons r a p.inside)

theorem down_injective (p : Place) : Function.Injective p.down := by
  intro x y h
  exact List.append_cancel_right (congrArg Place.inside h)

/-- A place is that of a name in another one. -/
structure Under (above : Place) (a : Name) (p : Place) : Prop where
  parent : p.parent? = some above
  walked : p.walked = above.walked ++ [.name a]
  components : p.components = above.components ++ [.name a]

theorem under_entry (p : Place) (a : Name) : Under p a (p.entry a) where
  parent := rfl
  walked := by simp [Place.walked, entry]
  components := by simp [Place.components, entry]

theorem size_le_entry (p : Place) (a : Name) : p.size ≤ (p.entry a).size := by
  rw [size, size]
  cases hr : p.inside.reverse with
  | nil =>
    simp only [entry, List.reverse_cons, hr, List.nil_append]
    omega
  | cons first rest =>
    have hne : p.inside ≠ [] := by
      rintro hnil
      simp [hnil] at hr
    have hmore := Text.total_le_of_sublist
      ((List.sublist_append_left rest [a]).map fun n => n.size + 1)
    simp only [entry, List.reverse_cons, hr, List.cons_append]
    simpa [hne] using hmore

theorem size_ne_zero {p : Place} (hp : p.path ≠ []) : p.size ≠ 0 := by
  obtain ⟨c, rest, hpath⟩ := List.exists_cons_of_ne_nil hp
  have hc := c.utf8Size_pos
  have hstart : Text.total (p.path.map Char.utf8Size) ≠ 0 := by
    rw [hpath, List.map_cons, Text.total]
    omega
  rw [size]
  split <;> omega

theorem nameable_of_entry {p : Place} {a : Name} (hp : p.path ≠ [])
    (h : FileTree.Nameable (p.entry a)) : FileTree.Nameable p :=
  ⟨h.1, size_ne_zero hp, (p.size_le_entry a).trans_lt h.2.2⟩

theorem below_entry {p q : Place} {a : Name} (h : below (p.entry a) (q.entry a) = true) :
    below p q = true := by
  have hentry (p : Place) : (p.entry a).components = p.components ++ [.name a] :=
    (under_entry p a).components
  rw [below, List.isPrefixOf_iff_prefix] at h ⊢
  rw [hentry, hentry, List.prefix_concat_iff] at h
  rcases h with heq | hprefix
  · rw [List.append_cancel_right heq]
  · exact (List.prefix_append _ _).trans hprefix

end Place

namespace FileTree

open Place (Under)

variable {t : FileTree} {root : Node} {follow : Bool} {links : Nat} {l l' : Location}
  {cs : List (Component Name)} {d n : Node} {p q : Place} {a : Name} {target : Target}

/-- A way to a directory that may be gone through goes on from there. -/
theorem Leads.goes_of_passable (h : Leads root true links l cs (.entry l' n))
    (hpass : Passable root l') : ∃ k, Goes root links l cs k l' := by
  by_cases hend : cs.getLast? = some .here
  · obtain ⟨ds, rfl⟩ := List.getLast?_eq_some_iff.mp hend
    obtain ⟨k, m, hgoes, hstay⟩ := (leads_append_iff (by simp)).mp h
    obtain ⟨rfl, -⟩ := leads_stay_iff.mp hstay
    exact ⟨k, goes_append_iff.mpr ⟨k, m, hgoes, goes_here_iff.mpr ⟨hpass, .done⟩⟩⟩
  · exact h.goes hend

/-- What a path leads to when links are followed is there also when the last one is not. -/
theorem Leads.unfollowed (h : Leads root true links l cs (.entry l' n)) :
    ∃ l₁ n₁, Leads root false links l cs (.entry l₁ n₁) := by
  generalize htarget : Target.entry l' n = target at h
  induction h with
  | arrived hn => exact ⟨_, _, .arrived hn⟩
  | stay hn hdir => exact ⟨_, _, .stay hn hdir⟩
  | vacant => cases htarget
  | link _ _ _ hfollow => cases hfollow
  | root hl _ ih =>
    obtain ⟨l₁, n₁, h⟩ := ih htarget
    exact ⟨l₁, n₁, .root hl h⟩
  | here hl _ ih =>
    obtain ⟨l₁, n₁, h⟩ := ih htarget
    exact ⟨l₁, n₁, .here hl h⟩
  | up hl _ ih =>
    obtain ⟨l₁, n₁, h⟩ := ih htarget
    exact ⟨l₁, n₁, .up hl h⟩
  | enter hl hsize hname hlink _ ih =>
    obtain ⟨l₁, n₁, h⟩ := ih htarget
    exact ⟨l₁, n₁, .enter hl hsize hname hlink h⟩
  | @follow _ _ _ _ _ rest _ hl hsize hname _ _ ih =>
    by_cases hrest : rest = []
    · subst hrest
      exact ⟨_, _, .link hl hsize hname rfl⟩
    · obtain ⟨l₁, n₁, h⟩ := ih htarget
      exact ⟨l₁, n₁, .follow hl hsize hname (fun hnil => absurd hnil hrest) h⟩

theorem find_unfollowed (h : t.find true p = .ok (.entry l n)) :
    ∃ l₁ n₁, t.find false p = .ok (.entry l₁ n₁) := by
  obtain ⟨hname, hleads⟩ := (find_eq_ok_iff t true p _).mp h
  obtain ⟨l₁, n₁, h₁⟩ := hleads.unfollowed
  exact ⟨l₁, n₁, (find_eq_ok_iff t false p _).mpr ⟨hname, h₁⟩⟩

theorem isDir_of_find (h : t.find true p = .ok (.entry l d)) : t.isDir p = d.isDir := by
  simp [isDir, node, h, Except.toOption]

theorem find_of_isDir (h : t.isDir p = true) :
    ∃ l d, t.find true p = .ok (.entry l d) ∧ d.isDir = true := by
  rw [isDir, Option.any_eq_true] at h
  obtain ⟨d, hd, hdir⟩ := h
  cases hnode : t.node true p with
  | error e => rw [hnode] at hd; cases hd
  | ok m =>
    rw [hnode] at hd
    cases hd
    obtain ⟨l, hl⟩ := (node_eq_ok_iff t true p d).mp hnode
    exact ⟨l, d, hl, hdir⟩

/-- A path goes on along more components from the directory that its first part leads to. -/
theorem find_along_iff (hp : t.find true p = .ok (.entry l d)) (hwalk : q.walked = p.walked ++ cs)
    (hcs : cs ≠ []) : t.find follow q = .ok target ↔ Nameable q ∧
      ∃ k, Goes t.root linkLimit [] p.walked k l ∧ Leads t.root follow k l cs target := by
  obtain ⟨hname, hleads⟩ := (find_eq_ok_iff t true p _).mp hp
  rw [find_eq_ok_iff, hwalk, leads_append_iff hcs]
  refine and_congr_right fun _ => ⟨?_, fun ⟨k, h⟩ => ⟨k, l, h⟩⟩
  rintro ⟨k, m, hgoes, hrest⟩
  -- behind the first part the walk stands in a directory, and that is where the first part leads
  obtain ⟨dm, hdm, hdmdir⟩ : ∃ dm, t.root.at? m = some dm ∧ dm.isDir = true := by
    obtain ⟨c, cs, rfl⟩ := List.exists_cons_of_ne_nil hcs
    cases hrest with
    | stay hn hdir => exact ⟨_, hn, hdir⟩
    | root hl _ | here hl _ | up hl _ | vacant hl _ _ | link hl _ _ _ | follow hl _ _ _ _
    | enter hl _ _ _ _ =>
      obtain ⟨dm, hdm, hdmdir, -⟩ := hl
      exact ⟨dm, hdm, hdmdir⟩
  have hsame := (find_eq_ok_iff t true p _).mpr ⟨hname, hgoes.leads hdm hdmdir⟩
  rw [hp] at hsame
  cases hsame
  exact ⟨k, hgoes, hrest⟩

/-- The entry of a directory is found by a look into it. It is as if no link were followed where
there is none. -/
theorem find_under_iff (hp : t.find true p = .ok (.entry l d)) (hdir : d.isDir = true)
    (hq : Under p a q)
    (hlink : ∀ m, t.root.at? (a :: l) = some m → m.isLink = true → follow = false) :
    t.find follow q = .ok target ↔ Nameable q ∧ d.grants .search = true ∧ a.size ≤ nameLimit ∧
      target = lookedUp l a d.entries := by
  have hd : t.root.at? l = some d := find_holds hp
  have hat : t.root.at? (a :: l) = List.lookup a d.entries := by
    rw [Node.at?_cons, hd]
    rfl
  rw [find_along_iff hp hq.walked (by simp), lookedUp, ← hat]
  refine and_congr_right fun _ => ⟨?_, ?_⟩
  · rintro ⟨k, -, hleads⟩
    have hsearch (hpass : Passable t.root l) : d.grants .search = true := by
      obtain ⟨d', hd', -, hs⟩ := hpass
      rw [hd] at hd'
      cases hd'
      exact hs
    cases hleads with
    | vacant hpass hsize hnone => exact ⟨hsearch hpass, hsize, by rw [hnone]⟩
    | link hpass hsize hsome _ => exact ⟨hsearch hpass, hsize, by rw [hsome]⟩
    | follow hpass hsize hsome hfollow _ =>
      rw [hlink _ hsome rfl] at hfollow
      exact absurd (hfollow rfl) (by decide)
    | enter hpass hsize hsome hno harrived =>
      cases harrived with
      | arrived hn => exact ⟨hsearch hpass, hsize, by rw [hsome, ← hsome, hn]⟩
  · rintro ⟨hsearch, hsize, rfl⟩
    have hpass : Passable t.root l := ⟨d, hd, hdir, hsearch⟩
    obtain ⟨k, hgoes⟩ := ((find_eq_ok_iff t true p _).mp hp).2.goes_of_passable hpass
    refine ⟨k, hgoes, ?_⟩
    cases hm : t.root.at? (a :: l) with
    | none => exact .vacant hpass hsize hm
    | some m =>
      cases hno : m.isLink with
      | false => exact .enter hpass hsize hm hno (.arrived hm)
      | true =>
        have hfollow := hlink m hm hno
        cases m with
        | link p changed => exact .link hpass hsize hm hfollow
        | _ => cases hno

/-- The location that a target is at, or that it is free for. -/
def Target.spot : Target → Location
  | .entry l _ => l
  | .vacant parent name => name :: parent

/-- A walk along names that no link stands at comes to what the names spell. -/
theorem Leads.spot_of_names {k : Nat} {ns : List Name}
    (h : Leads root follow k l (ns.map .name) target)
    (hlink : ∀ x m, x <:+ ns.reverse → root.at? (x ++ l) = some m → m.isLink = false) :
    Target.spot target = ns.reverse ++ l := by
  induction ns generalizing l k with
  | nil =>
    cases h
    rfl
  | cons a ns ih =>
    rw [List.map_cons] at h
    rw [List.reverse_cons] at hlink
    generalize htodo : ns.map Component.name = todo at h
    have hfirst : [a] <:+ ns.reverse ++ [a] := List.suffix_append ..
    cases h with
    | link _ _ hname _ | follow _ _ hname _ _ => cases hlink [a] _ hfirst hname
    | vacant =>
      obtain rfl := List.map_eq_nil_iff.mp htodo
      rfl
    | enter _ _ _ _ hrest =>
      subst htodo
      have hrest := ih hrest fun x m hx hm =>
        hlink (x ++ [a]) m (List.suffix_append_self_iff.mpr hx) (by simpa using hm)
      simpa using hrest

end FileTree

end LineShell

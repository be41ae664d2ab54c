import LineShell.Proofs.Commands.Copy
import LineShell.Proofs.Files.Sight
import LineShell.Proofs.Files.Spelling

/-! What the copying of a directory leaves: what was at the destination, with the source laid over
it. The entries of a directory are copied one after the other, and those that are still to be copied
are as they were, so that their order is of no matter. -/

namespace LineShell.Commands

open FileTree (Destined Grows Nameable Open Proper Raised Sole)
open Node (Apart)

/-- What is seen where something of the source is laid over what was there. A directory stays as it
is where it is there, and a file gets all that the one in the source has, but for its time. -/
def overlaid (now : Time) : Option Sight → Option Sight → Option Sight
  | none, old => old
  | some (.file data), _ => some (.file (data.map fun f => { f with changed := now }))
  | some _, old => old.or (some (.dir newDirMode))

/-- A tree with what another one has at `a` laid over what that has at `b`. Directories that are
missing above `b` are made; all else is as it was. -/
structure Overlaid (now : Time) (t t' : FileTree) (a b : Location) : Prop where
  grows : Grows t t'
  proper : Proper t'
  here : ∀ x, t'.look (x ++ b) = overlaid now (t.look (x ++ a)) (t.look (x ++ b))
  above : ∀ k, k <:+ b → t'.look k = (t.look k).or (some (.dir newDirMode))
  elsewhere : ∀ k, Apart b k → t'.look k = t.look k

/-- The source has directories and files only, and where something is at the destination, it is of
the same kind as in the source. No file there has another name. -/
structure Fits (t : FileTree) (a b : Location) : Prop where
  plain : ∀ x s, t.look (x ++ a) = some s → s.isDir = true ∨ s.isFile = true
  alike : ∀ x s s', t.look (x ++ a) = some s → t.look (x ++ b) = some s' →
    s'.isDir = s.isDir ∧ s'.isFile = s.isFile
  sole : ∀ x id, t.look (x ++ a) ≠ none → t.root.at? (x ++ b) = some (.file id) →
    Sole t (x ++ b) id

/-- The system lets the copying have its way: the source may be read; a file at the destination may
be written, and so may a directory there that something is missing in; directories may be searched
for what is copied from and to them; and no path or name is too long. -/
structure Unhindered (t : FileTree) (source : Place) (a : Location) (dest : Place) (b : Location) :
    Prop where
  readable : ∀ x s, t.look (x ++ a) = some s → s.grants .read = true
  searched : ∀ x c s, t.look (x ++ a) = some s → t.look (c :: (x ++ a)) ≠ none →
    s.grants .search = true
  rewritten : ∀ x s s', t.look (x ++ a) = some s → s.isFile = true → t.look (x ++ b) = some s' →
    s'.grants .write = true
  filled : ∀ x c s', t.look (c :: (x ++ a)) ≠ none → t.look (x ++ b) = some s' →
    s'.grants .search = true ∧ (t.look (c :: (x ++ b)) = none → s'.grants .write = true)
  way : Open t b
  names : ∀ x, t.look (x ++ a) ≠ none →
    Nameable (source.down x) ∧ Nameable (dest.down x) ∧ ∀ c ∈ x, c.size ≤ FileTree.nameLimit

/-- A directory that can be copied from one location to another. -/
structure Copyable (t : FileTree) (source : Place) (a : Location) (dest : Place) (b : Location) :
    Prop extends Fits t a b, Unhindered t source a dest b where
  proper : Proper t
  origin : ∃ n, t.find true source = .ok (.entry a n) ∧ n.isDir = true
  goal : Destined t dest b
  apart : Apart a b
  paths : source.path ≠ [] ∧ dest.path ≠ []

/-- A copying under way: the directory for the copy stands at `b`, some entries of the directory at
`a` are laid over what was in there, and all else is as it was. -/
structure Underway (now : Time) (t t' : FileTree) (a : Location) (dest : Place) (b : Location)
    (names : List Name) : Prop where
  grows : Grows t t'
  proper : Proper t'
  stands : ∃ d, t'.find true dest = .ok (.entry b d) ∧ d.isDir = true
  above : ∀ k, k <:+ b → t'.look k = (t.look k).or (some (.dir newDirMode))
  done : ∀ c ∈ names, ∀ x,
    t'.look (x ++ c :: b) = overlaid now (t.look (x ++ c :: a)) (t.look (x ++ c :: b))
  rest : ∀ k, ¬ k <:+ b → (∀ c ∈ names, ¬ (c :: b) <:+ k) → t'.look k = t.look k

/-- A tree with one entry laid over another. -/
structure Laid (now : Time) (t t' : FileTree) (a b : Location) : Prop where
  grows : Grows t t'
  proper : Proper t'
  here : ∀ x, t'.look (x ++ b) = overlaid now (t.look (x ++ a)) (t.look (x ++ b))
  elsewhere : ∀ k, ¬ b <:+ k → t'.look k = t.look k

variable {now : Time} {t t' t'' : FileTree} {source dest : Place} {a b : Location}
  {names : List Name} {c : Name} {s : Sight}

section Locations

theorem not_cons_suffix (x b : Location) (c : Name) : ¬ x ++ c :: b <:+ b := by
  intro h
  have := h.length_le
  simp at this
  omega

theorem eq_of_cons_suffix {x b : Location} {c c' : Name} (h : c :: b <:+ x ++ c' :: b) :
    c = c' := by
  obtain ⟨y, hy⟩ := h
  exact (List.cons.inj (List.append_inj_right' hy rfl)).1

theorem ne_none_of_below {x : Location} (h : t.look (x ++ b) ≠ none) : t.look b ≠ none := by
  intro hnone
  rw [FileTree.look_eq_none_iff] at hnone
  exact h (FileTree.look_eq_none_iff.mpr (Node.at?_below_none hnone x))

end Locations

section Steps

theorem Underway.start (hproper : Proper t) (hraised : Raised now b t t')
    (hstands : ∃ d, t'.find true dest = .ok (.entry b d) ∧ d.isDir = true) :
    Underway now t t' a dest b [] := by
  obtain ⟨d, hfind, hdir⟩ := hstands
  have hthere : t'.root.at? b = some d := FileTree.find_holds hfind
  have hlook := hraised.look (by simp [hthere])
  exact
    { grows := hraised.grows
      proper := hraised.proper hproper
      stands := ⟨d, hfind, hdir⟩
      above := fun k hk => by rw [hlook, if_pos hk]
      done := by simp
      rest := fun k hk _ => by rw [hlook, if_neg hk] }

/-- The source is as it was. -/
theorem Underway.look_source (h : Underway now t t' a dest b names) (hapart : Apart a b)
    (x : Location) : t'.look (x ++ a) = t.look (x ++ a) :=
  h.rest _ (hapart.below x []).1 fun c _ => (hapart.below x [c]).2

/-- What is still to be copied over is as it was. -/
theorem Underway.look_dest (h : Underway now t t' a dest b names) (hc : c ∉ names) (x : Location) :
    t'.look (x ++ c :: b) = t.look (x ++ c :: b) :=
  h.rest _ (not_cons_suffix x b c) fun _ hc' hbelow => hc (eq_of_cons_suffix hbelow ▸ hc')

theorem Underway.append (h : Underway now t t' a dest b names)
    (hlaid : Laid now t' t'' (c :: a) (c :: b)) (hc : c ∉ names) (hapart : Apart a b) :
    Underway now t t'' a dest b (names ++ [c]) where
  grows := h.grows.trans hlaid.grows
  proper := hlaid.proper
  stands := by
    obtain ⟨d, hfind, hdir⟩ := h.stands
    obtain ⟨d', ha, hfind'⟩ := FileTree.find_grown hlaid.grows.within hfind
    exact ⟨d', hfind', ha.isDir ▸ hdir⟩
  above := by
    intro k hk
    rw [hlaid.elsewhere k fun hbelow => not_cons_suffix [] b c (hbelow.trans hk), h.above k hk]
  done := by
    intro c' hc' x
    rcases List.mem_append.mp hc' with hc' | hc'
    · rw [hlaid.elsewhere _ fun hbelow => hc (eq_of_cons_suffix hbelow ▸ hc'), h.done c' hc']
    · obtain rfl := List.mem_singleton.mp hc'
      have hsource := h.look_source hapart (x ++ [c'])
      rw [List.append_assoc, List.singleton_append] at hsource
      rw [hlaid.here, hsource, h.look_dest hc]
  rest := by
    intro k hk hnames
    rw [hlaid.elsewhere k (hnames c (by simp)),
      h.rest k hk fun c' hc' => hnames c' (List.mem_append_left _ hc')]

/-- When all entries are copied, the directory is. -/
theorem Underway.finish (h : Underway now t t' a dest b names) {mode : Nat}
    (hdir : t.look a = some (.dir mode)) (hall : ∀ c, t.look (c :: a) ≠ none → c ∈ names) :
    Overlaid now t t' a b where
  grows := h.grows
  proper := h.proper
  here := by
    intro x
    cases x using List.reverseRecOn with
    | nil =>
      rw [List.nil_append, List.nil_append, h.above b (List.suffix_refl b), hdir]
      rfl
    | append_singleton y c _ =>
      rw [List.append_assoc, List.append_assoc, List.singleton_append, List.singleton_append]
      by_cases hc : c ∈ names
      · exact h.done c hc y
      · have hnone : t.look (y ++ c :: a) = none := by
          by_contra hsome
          exact hc (hall c (ne_none_of_below hsome))
        rw [h.look_dest hc, hnone]
        rfl
  above := h.above
  elsewhere := by
    intro k hk
    exact h.rest k hk.2 fun c _ hbelow => hk.1 ((List.suffix_cons c b).trans hbelow)

/-- In a directory that is there, a copy changes nothing but what it is made of. -/
theorem Overlaid.laid (h : Overlaid now t t' (c :: a) (c :: b)) (hthere : t.look b ≠ none) :
    Laid now t t' (c :: a) (c :: b) where
  grows := h.grows
  proper := h.proper
  here := h.here
  elsewhere := by
    intro k hk
    by_cases habove : k <:+ c :: b
    · obtain ⟨x, rfl⟩ := (List.suffix_cons_iff.mp habove).resolve_left
        fun heq => hk (heq ▸ List.suffix_refl _)
      rw [h.above k habove]
      cases hlook : t.look k with
      | none => exact absurd hlook (ne_none_of_below hthere)
      | some s => rfl
    · exact h.elsewhere k ⟨hk, habove⟩

end Steps

section Entries

variable (h : Copyable t source a dest b) (hway : Underway now t t' a dest b names)

include h hway

/-- The directory for the copy takes what is to be copied to it. -/
theorem Copyable.takes (hs : t.look (c :: a) = some s) :
    ∃ d, t'.find true dest = .ok (.entry b d) ∧ d.isDir = true ∧ d.grants .search = true ∧
      (t.look (c :: b) = none → d.grants .write = true) := by
  obtain ⟨d, hfind, hdir⟩ := hway.stands
  have hlook := hway.above b (List.suffix_refl b)
  rw [FileTree.look_of_at? (FileTree.find_holds hfind)] at hlook
  refine ⟨d, hfind, hdir, ?_⟩
  rw [← t'.sight_grants_of_isDir .search hdir, ← t'.sight_grants_of_isDir .write hdir]
  cases hb : t.look b with
  | none =>
    rw [hb] at hlook
    rw [Option.some.inj hlook]
    exact ⟨rfl, fun _ => rfl⟩
  | some s' =>
    rw [hb] at hlook
    rw [Option.some.inj hlook]
    exact h.filled [] c s' (by simp [hs]) hb

/-- An entry of the source is found. -/
theorem Copyable.find_source (hs : t.look (c :: a) = some s)
    (hplain : s.isDir = true ∨ s.isFile = true) :
    ∃ m, t'.find true (source.entry c) = .ok (.entry (c :: a) m) ∧ t'.sight m = s := by
  obtain ⟨n, hn, hdir⟩ := h.origin
  obtain ⟨n', ha, hn'⟩ := FileTree.find_grown hway.grows.within hn
  obtain ⟨m, hm, hsight⟩ := FileTree.at?_of_look ((hway.look_source h.apart [c]).trans hs)
  obtain ⟨hname, -, hsize⟩ := h.names [c] (by simp [hs])
  have hsearch : n'.grants .search = true := by
    have hgrants := h.searched [] c _ (FileTree.look_of_at? (FileTree.find_holds hn)) (by simp [hs])
    rwa [t.sight_grants_of_isDir .search hdir, ha.grants] at hgrants
  refine ⟨m, (FileTree.find_under_iff hn' (ha.isDir ▸ hdir) (source.under_entry c)
    fun m' hm' hlink => ?_).mpr ⟨hname, hsearch, hsize c (by simp),
      (FileTree.lookedUp_of_at? (FileTree.find_holds hn') hm).symm⟩, hsight⟩
  rw [List.singleton_append] at hm
  rw [hm] at hm'
  cases hm'
  rw [← hsight] at hplain
  cases m <;> simp_all [FileTree.sight, Sight.isDir, Sight.isFile, Node.isLink]

variable (hc : c ∉ names)

include hc

/-- What is seen below an entry that is still to be copied is what was seen in the beginning. -/
theorem Copyable.look_entry (x : Location) :
    t'.look (x ++ c :: a) = t.look ((x ++ [c]) ++ a) ∧
      t'.look (x ++ c :: b) = t.look ((x ++ [c]) ++ b) := by
  have hsource := hway.look_source h.apart (x ++ [c])
  have hdest := hway.look_dest hc x
  simp only [List.append_assoc, List.singleton_append] at hsource ⊢
  exact ⟨hsource, hdest⟩

theorem Copyable.look_entry_none (hnone : t'.root.at? (c :: b) = none) :
    t.look (c :: b) = none :=
  (h.look_entry hway hc []).2.symm.trans (FileTree.look_eq_none_iff.mpr hnone)

/-- Nothing has come to where an entry is still to be copied. -/
theorem Copyable.at?_entry {x : Location} {id : Nat}
    (hid : t'.root.at? (x ++ c :: b) = some (.file id)) :
    t.root.at? ((x ++ [c]) ++ b) = some (.file id) := by
  have hlook := FileTree.look_of_at? hid
  rw [(h.look_entry hway hc x).2] at hlook
  obtain ⟨n, hn, -⟩ := FileTree.at?_of_look hlook
  obtain ⟨n', hn', ha⟩ := hway.grows.within _ n hn
  rw [List.append_assoc, List.singleton_append, hid] at hn'
  cases hn'
  rwa [ha.symm.eq rfl]

/-- Where an entry of the source is a directory, the way to its copy is open. -/
theorem Copyable.open_entry (hs : t.look (c :: a) = some s) : Open t' (c :: b) where
  above := by
    intro e k d hsuffix hd
    obtain ⟨n, hn, hdir, hsearch, hwrite⟩ := h.takes hway hs
    have hb : t'.root.at? b = some n := FileTree.find_holds hn
    rcases List.suffix_cons_iff.mp hsuffix with heq | hsuffix
    · obtain ⟨rfl, rfl⟩ := List.cons.inj heq
      rw [hb] at hd
      cases hd
      exact ⟨hdir, hsearch, fun hnone => hwrite (h.look_entry_none hway hc hnone)⟩
    · -- what is above the directory for the copy was there, or has been made like it
      obtain ⟨x, rfl⟩ := hsuffix
      have hthere (hnone : t'.root.at? (e :: k) = none) : d.grants .write = true := by
        rw [Node.at?_below_none hnone] at hb
        cases hb
      cases hk : t.root.at? k with
      | some m =>
        obtain ⟨d', hd', ha⟩ := hway.grows.within k m hk
        rw [hd] at hd'
        cases hd'
        obtain ⟨hmdir, hsearch, -⟩ := h.way.above e k m (List.suffix_append x _) hk
        exact ⟨ha.isDir ▸ hmdir, ha.grants .search ▸ hsearch, hthere⟩
      | none =>
        have hlook := hway.above k ((List.suffix_cons e k).trans (List.suffix_append x _))
        rw [FileTree.look_of_at? hd, FileTree.look_eq_none_iff.mpr hk] at hlook
        have hdir : d.isDir = true := by rw [← t'.sight_isDir, Option.some.inj hlook]; rfl
        refine ⟨hdir, ?_, hthere⟩
        rw [← t'.sight_grants_of_isDir .search hdir, Option.some.inj hlook]
        rfl
  names := by
    intro e he
    rcases List.mem_cons.mp he with rfl | he
    · exact (h.names [e] (by simp [hs])).2.2 e (by simp)
    · exact h.way.names e he

/-- A directory in the source is to be copied as the source is. -/
theorem Copyable.entry (hs : t.look (c :: a) = some s) (hdir : s.isDir = true) :
    Copyable t' (source.entry c) (c :: a) (dest.entry c) (c :: b) := by
  have hlook := h.look_entry hway hc
  have hdown (p : Place) (x : Location) : (p.entry c).down x = p.down (x ++ [c]) :=
    p.entry_down c x
  exact
    { plain := fun x s' hs' => h.plain (x ++ [c]) s' ((hlook x).1 ▸ hs')
      alike := fun x s₁ s₂ h₁ h₂ => h.alike (x ++ [c]) s₁ s₂ ((hlook x).1 ▸ h₁) ((hlook x).2 ▸ h₂)
      sole := by
        intro x id hsome hid
        have hold := h.at?_entry hway hc hid
        have hsole := h.sole (x ++ [c]) id ((hlook x).1 ▸ hsome) hold
        rw [List.append_assoc, List.singleton_append] at hsole
        exact hsole.grows hway.grows (h.proper.stored _ id hold)
      readable := fun x s' hs' => h.readable (x ++ [c]) s' ((hlook x).1 ▸ hs')
      searched := fun x e s' hs' he =>
        h.searched (x ++ [c]) e s' ((hlook x).1 ▸ hs') ((hlook (e :: x)).1 ▸ he)
      rewritten := fun x s₁ s₂ h₁ hfile h₂ =>
        h.rewritten (x ++ [c]) s₁ s₂ ((hlook x).1 ▸ h₁) hfile ((hlook x).2 ▸ h₂)
      filled := by
        intro x e s' he hs'
        obtain ⟨hsearch, hwrite⟩ :=
          h.filled (x ++ [c]) e s' ((hlook (e :: x)).1 ▸ he) ((hlook x).2 ▸ hs')
        exact ⟨hsearch, fun hnone => hwrite ((hlook (e :: x)).2 ▸ hnone)⟩
      way := h.open_entry hway hc hs
      names := by
        intro x hx
        rw [(hlook x).1] at hx
        obtain ⟨hfrom, hto, hsizes⟩ := h.names (x ++ [c]) hx
        exact ⟨hdown source x ▸ hfrom, hdown dest x ▸ hto, fun e he => hsizes e (by simp [he])⟩
      proper := hway.proper
      origin := by
        obtain ⟨m, hm, hsight⟩ := h.find_source hway hs (.inl hdir)
        exact ⟨m, hm, by rw [← t'.sight_isDir, hsight, hdir]⟩
      goal := by
        obtain ⟨d, hd, hddir⟩ := hway.stands
        refine .under (.found hd hddir) (dest.under_entry c) (Place.nameable_of_entry h.paths.2)
          fun m hm => ?_
        have hm' := (hlook []).2.symm.trans (FileTree.look_of_at? hm)
        have hkind := (h.alike [c] s _ hs hm').1
        rw [t'.sight_isDir, hdir] at hkind
        exact FileTree.isLink_of_isDir hkind
      apart := h.apart.below [c] [c]
      paths := h.paths }

/-- A file stands ready where a file of the source is to be copied to, and it is another one. -/
theorem Copyable.file_opens (hs : t.look (c :: a) = some s) (hfile : s.isFile = true) :
    ∃ t₁ new, t'.openForWriting now (dest.entry c) = .ok (t₁, some new) ∧
      FileTree.Opened t' t₁ (c :: b) new ∧
      ∀ id, t'.root.at? (c :: a) = some (.file id) → id ≠ new := by
  obtain ⟨d, hd, hdir, hsearch, hwrite⟩ := h.takes hway hs
  obtain ⟨-, hname, hsize⟩ := h.names [c] (by simp [hs])
  have hb : t'.root.at? b = some d := FileTree.find_holds hd
  have hfind (hlink : ∀ m, t'.root.at? (c :: b) = some m → m.isLink = false) :
      t'.find true (dest.entry c) = .ok (FileTree.lookedUp b c d.entries) :=
    (FileTree.find_under_iff hd hdir (dest.under_entry c) fun m hm => by simp [hlink m hm]).mpr
      ⟨hname, hsearch, hsize c (by simp), rfl⟩
  cases hold : t'.root.at? (c :: b) with
  | none =>
    have hfree := hfind (by simp [hold])
    rw [FileTree.lookedUp_of_none hb hold] at hfree
    obtain ⟨t₁, hopen, hopened⟩ := FileTree.openForWriting_vacant hway.proper hfree
      (by simp [FileTree.mayChange, hb, hwrite (h.look_entry_none hway hc hold), hsearch]) now
    exact ⟨t₁, _, hopen, hopened, fun id hid => Nat.ne_of_lt (hway.proper.stored _ id hid)⟩
  | some m =>
    have hm := (h.look_entry hway hc []).2.symm.trans (FileTree.look_of_at? hold)
    have hkind := (h.alike [c] _ _ hs hm).2.trans hfile
    obtain ⟨old, rfl⟩ : ∃ old, m = .file old := by
      cases m <;> first | exact ⟨_, rfl⟩ | cases hkind
    have hthere := hfind (by simp [hold, Node.isLink])
    rw [FileTree.lookedUp_of_at? hb hold] at hthere
    have hbefore := h.at?_entry (x := []) hway hc hold
    have hsole : Sole t' (c :: b) old := (h.sole [c] old (by simp [hs]) hbefore).grows hway.grows
      (h.proper.stored _ old hbefore)
    have hgrants : t'.grants .write (.file old) = true := by
      rw [← FileTree.sight_grants]
      exact h.rewritten [c] _ _ hs hfile hm
    obtain ⟨hopen, hopened⟩ :=
      FileTree.openForWriting_file hway.proper hthere hgrants hsole now
    refine ⟨t', old, hopen, hopened, ?_⟩
    rintro id hid rfl
    exact h.apart.1 ((List.cons.inj (hsole _ hid)).2 ▸ List.suffix_refl a)

/-- A file of the source is laid over what is at the destination. -/
theorem Copyable.file_laid (hs : t.look (c :: a) = some s) (hfile : s.isFile = true) :
    ∃ t'', t'.copyFile now (source.entry c) (dest.entry c) = .ok t'' ∧
      Laid now t' t'' (c :: a) (c :: b) := by
  obtain ⟨m, hsource, rfl⟩ := h.find_source hway hs (.inr hfile)
  obtain ⟨id, rfl⟩ : ∃ id, m = .file id := by cases m <;> first | exact ⟨_, rfl⟩ | cases hfile
  have hread : t'.grants .read (.file id) = true := by
    rw [← FileTree.sight_grants]
    exact h.readable [c] _ hs
  have hat : t'.root.at? (c :: a) = some (.file id) := FileTree.find_holds hsource
  obtain ⟨t₁, new, hopen, hopened, hnew⟩ := h.file_opens hway hc hs hfile
  obtain ⟨t'', hcopy, hgrows, hproper, hlook⟩ :=
    FileTree.copyFile_of_opened hway.proper hsource hread hopen hopened (hnew id hat)
  refine ⟨t'', hcopy, hgrows, hproper, fun x => ?_, fun k hk => ?_⟩
  · cases x with
    | nil =>
      rw [List.nil_append, List.nil_append, hlook, if_pos rfl, FileTree.look_of_at? hat]
      rfl
    | cons e x =>
      have hleaf : t'.look (e :: x ++ c :: a) = none := by
        rw [FileTree.look_eq_none_iff, Node.at?_append, hat]
        exact Node.at?_of_leaf rfl (List.cons_ne_nil e x)
      rw [hlook, if_neg, hleaf]
      · rfl
      · intro heq
        have := congrArg List.length heq
        simp at this
        omega
  · rw [hlook, if_neg]
    rintro rfl
    exact hk (List.suffix_refl _)

end Entries

section Loop

variable (h : Copyable t source a dest b)

include h

/-- The directory for the copy is made, and the source is listed. -/
theorem Copyable.start (now : Time) : ∃ t₁ n, t.createDirAll now dest = (t₁, none) ∧
    t₁.list source = .ok n.entries ∧ t₁.root.at? a = some n ∧ Underway now t t₁ a dest b [] := by
  obtain ⟨n, hn, hndir⟩ := h.origin
  have ha := FileTree.look_of_at? (FileTree.find_holds hn)
  obtain ⟨-, hname, -⟩ := h.names [] (by simp [ha])
  obtain ⟨t₁, hdirs, hraised, hstands⟩ := FileTree.createDirAll_made now h.goal h.way hname
    (fun d hd => by
      have hkind := (h.alike [] _ _ ha (FileTree.look_of_at? hd)).1
      rw [t.sight_isDir, t.sight_isDir] at hkind
      exact hkind.trans hndir)
  obtain ⟨n₁, halike, hn₁⟩ := FileTree.find_grown hraised.grown.within hn
  have hread : n₁.grants .read = true := by
    have hgrants := h.readable [] _ ha
    rwa [t.sight_grants_of_isDir .read hndir, halike.grants] at hgrants
  have hlist := (FileTree.list_eq_ok_iff _ _ _).mpr
    ⟨a, n₁, hn₁, halike.isDir ▸ hndir, hread, rfl⟩
  exact ⟨t₁, n₁, hdirs, hlist, FileTree.find_holds hn₁, .start h.proper hraised hstands⟩

/-- One entry is copied, where the copying of a directory is known to lay it over. -/
theorem Copyable.entry_done (hway : Underway now t t' a dest b names) {e : Name × Node}
    (hnew : e.1 ∉ names) (hs : t.look (e.1 :: a) = some s) (hkind : e.2.isDir = s.isDir)
    (hdir : Copyable t' (source.entry e.1) (e.1 :: a) (dest.entry e.1) (e.1 :: b) →
      ∃ t'', copyDir now t' (source.entry e.1) (dest.entry e.1) = (t'', .ok ()) ∧
        Overlaid now t' t'' (e.1 :: a) (e.1 :: b)) :
    ∃ t'', copyEntry now source dest t' e = (t'', .ok ()) ∧
      Underway now t t'' a dest b (names ++ [e.1]) := by
  cases hisDir : s.isDir with
  | true =>
    obtain ⟨t'', hcopy, hover⟩ := hdir (h.entry hway hnew hs hisDir)
    obtain ⟨d, hd, -⟩ := hway.stands
    have hthere : t'.look b ≠ none := by simp [FileTree.look_of_at? (FileTree.find_holds hd)]
    exact ⟨t'', by rw [copyEntry, hkind, if_pos hisDir, hcopy],
      hway.append (hover.laid hthere) hnew h.apart⟩
  | false =>
    have hfile := (h.plain [e.1] s hs).resolve_left (by simp [hisDir])
    obtain ⟨t'', hcopy, hlaid⟩ := h.file_laid hway hnew hs hfile
    exact ⟨t'', by rw [copyEntry, hkind, if_neg (by simp [hisDir]), hcopy],
      hway.append hlaid hnew h.apart⟩

/-- All entries are copied one after the other, whatever order they are listed in. -/
theorem Copyable.entries_done {t₁ : FileTree} {n : Node} (hn : t₁.root.at? a = some n)
    (hstart : Underway now t t₁ a dest b [])
    (hdir : ∀ (t' : FileTree) (e : Name × Node),
      Copyable t' (source.entry e.1) (e.1 :: a) (dest.entry e.1) (e.1 :: b) →
      ∃ t'', copyDir now t' (source.entry e.1) (dest.entry e.1) = (t'', .ok ()) ∧
        Overlaid now t' t'' (e.1 :: a) (e.1 :: b)) :
    ∃ t' us, each (copyEntry now source dest) t₁ n.entries = (t', .ok us) ∧
      Underway now t t' a dest b (n.entries.map Prod.fst) := by
  have hnamed := hstart.proper.named
  have hstep (done : List (Name × Node)) (e : Name × Node) (rest : List (Name × Node))
      (t' : FileTree) (hsplit : n.entries = done ++ e :: rest)
      (hway : Underway now t t' a dest b (done.map Prod.fst)) :
      ∃ t'', copyEntry now source dest t' e = (t'', .ok ()) ∧
        Underway now t t'' a dest b ((done ++ [e]).map Prod.fst) := by
    have hmem : e ∈ n.entries := by rw [hsplit]; simp
    have hnew : e.1 ∉ done.map Prod.fst := by
      have hnames := hnamed a n hn
      rw [hsplit, List.map_append, List.nodup_append] at hnames
      exact fun hmem => hnames.2.2 _ hmem _ (by simp) rfl
    have hs : t.look (e.1 :: a) = some (t₁.sight e.2) :=
      (hstart.look_source h.apart [e.1]).symm.trans
        (FileTree.look_of_at? ((hnamed.mem_entries_iff hn).mp hmem))
    rw [List.map_append, List.map_singleton]
    exact h.entry_done hway hnew hs (t₁.sight_isDir e.2).symm (hdir t' e)
  have hloop (done : List (Name × Node)) (e : Name × Node) (rest : List (Name × Node))
      (t' : FileTree) (hsplit : n.entries = done ++ e :: rest)
      (hway : Underway now t t' a dest b (done.map Prod.fst)) :
      (∀ t'' u, copyEntry now source dest t' e = (t'', .ok u) →
        Underway now t t'' a dest b ((done ++ [e]).map Prod.fst)) ∧
      ∀ t'' f, copyEntry now source dest t' e = (t'', .error f) → False := by
    obtain ⟨t'', hcopy, hway'⟩ := hstep done e rest t' hsplit hway
    rw [hcopy]
    exact ⟨by rintro _ _ ⟨⟩; exact hway', by rintro _ _ ⟨⟩⟩
  obtain ⟨hok, herror⟩ := each_invariant
    (fun done t' => Underway now t t' a dest b (done.map Prod.fst)) (fun _ _ => False)
    hloop hstart
  cases heach : each (copyEntry now source dest) t₁ n.entries with
  | mk t' r =>
    cases r with
    | error f => exact absurd (herror t' f heach) id
    | ok us => exact ⟨t', us, rfl, hok t' us heach⟩

end Loop

/-- A copying that is not refused and that nothing hinders lays the source over the destination. -/
theorem Copyable.overlaid (h : Copyable t source a dest b)
    (hbelow : Place.below source dest = false) (now : Time) :
    ∃ t', copyDir now t source dest = (t', .ok ()) ∧ Overlaid now t t' a b := by
  -- the recursion is on the room that the path of the source leaves for names below it
  induction hroom : source.room using Nat.strong_induction_on generalizing t source a dest b with
  | _ room ih =>
    obtain ⟨t₁, n, hdirs, hlist, hn, hstart⟩ := h.start now
    obtain ⟨t', us, heach, hway⟩ := h.entries_done hn hstart fun t' e hready => by
      refine ih _ (hroom ▸ Place.room_entry_lt hlist e.1) hready ?_ rfl
      rw [Bool.eq_false_iff] at hbelow ⊢
      exact fun h => hbelow (Place.below_entry h)
    obtain ⟨mode, hmode⟩ : ∃ mode, t.look a = some (.dir mode) := by
      obtain ⟨d, hd, hdir⟩ := h.origin
      have ha := FileTree.look_of_at? (FileTree.find_holds hd)
      cases d <;> first | exact ⟨_, ha⟩ | cases hdir
    refine ⟨t', ?_, hway.finish hmode fun c hc => ?_⟩
    · rw [copyDir_of_list (by simp [hbelow]) hdirs hlist, heach]
      rfl
    · rw [← List.singleton_append, ← hstart.look_source h.apart [c]] at hc
      obtain ⟨s, hs⟩ := Option.ne_none_iff_exists'.mp hc
      obtain ⟨m, hm, -⟩ := FileTree.at?_of_look hs
      exact List.mem_map.mpr ⟨(c, m), (hstart.proper.named.mem_entries_iff hn).mpr hm, rfl⟩

/-- A directory is copied with all that is in it over what is at the destination. Nothing else
changes, but for the directories that were missing above the copy. The paths are spelled as those
are that have been resolved. -/
theorem copyDir_overlaid {source dest : Path} {n : Node} (hproper : Proper t)
    (hsource : source.IsTidy) (hdest : dest.IsTidy)
    (hfind : t.find true source = .ok (.entry a n)) (hdir : n.isDir = true)
    (hplace : Destined t dest b) (hapart : Apart a b) (hfits : Fits t a b)
    (hfree : Unhindered t source a dest b) (now : Time) :
    ∃ t', copyDir now t source dest = (t', .ok ()) ∧ Overlaid now t t' a b ∧
      ∀ x, t'.look (x ++ a) = t.look (x ++ a) := by
  have hready : Copyable t source a dest b :=
    { hfits, hfree with
      proper := hproper
      origin := ⟨n, hfind, hdir⟩
      goal := hplace
      apart := hapart
      paths := ⟨Path.ne_nil_of_isAbsolute hsource.isNormal.absolute,
        Path.ne_nil_of_isAbsolute hdest.isNormal.absolute⟩ }
  have hbelow : Place.below source dest = false := by
    rw [Bool.eq_false_iff]
    intro hbelow
    obtain ⟨x, hx⟩ := (hsource.below_iff hdest).mp hbelow
    have hwalk : Place.walked dest = Place.walked source ++ x.reverse.map .name := by
      simp [hsource.walked, hdest.walked, ← hx]
    refine hapart.1 (hplace.suffix_of_walked hfind (fun y m hm => ?_) hwalk)
    have hkind := hfits.plain y _ (FileTree.look_of_at? hm)
    cases m <;> simp_all [FileTree.sight, Sight.isDir, Sight.isFile, Node.isLink]
  obtain ⟨t', hcopy, hover⟩ := hready.overlaid hbelow now
  exact ⟨t', hcopy, hover, fun x => hover.elsewhere _ (hapart.below x []).symm⟩

/-- A directory `d` with a file, and one `e` with an older file of that name and another one. -/
def newAndOld : FileTree where
  root := .dir 0o755 0
    [(Name.ofText ['d'], .dir 0o755 0 [(Name.ofText ['f'], .file 0)]),
      (Name.ofText ['e'], .dir 0o755 0
        [(Name.ofText ['f'], .file 1), (Name.ofText ['g'], .file 2)])]
  files := [{ bytes := Text.encode ['n', 'e', 'w'], mode := 0o644, changed := 0 },
    { bytes := Text.encode ['o', 'l', 'd'], mode := 0o600, changed := 0 },
    { bytes := Text.encode ['o', 'l', 'd'], mode := 0o600, changed := 0 }]

section NewAndOld

variable {x y : Location} {n : Node} {id : Nat}

theorem newAndOld_source (h : newAndOld.root.at? (y ++ [Name.ofText ['d']]) = some n) :
    (y = [] ∧ newAndOld.sight n = .dir 0o755) ∨ (y = [Name.ofText ['f']] ∧ n = .file 0) := by
  rw [Node.at?_append] at h
  rcases Node.at?_cases h with ⟨rfl, rfl⟩ | ⟨z, e, rfl, hmem, hz⟩
  · exact .inl ⟨rfl, rfl⟩
  · obtain rfl := List.mem_singleton.mp hmem
    obtain ⟨rfl, rfl⟩ := Node.eq_of_at?_leaf rfl hz
    exact .inr ⟨rfl, rfl⟩

theorem newAndOld_dest (h : newAndOld.root.at? (y ++ [Name.ofText ['e']]) = some n) :
    (y = [] ∧ newAndOld.sight n = .dir 0o755) ∨ (y = [Name.ofText ['f']] ∧ n = .file 1) ∨
      (y = [Name.ofText ['g']] ∧ n = .file 2) := by
  rw [Node.at?_append] at h
  rcases Node.at?_cases h with ⟨rfl, rfl⟩ | ⟨z, e, rfl, hmem, hz⟩
  · exact .inl ⟨rfl, rfl⟩
  · rcases List.mem_pair.mp hmem with rfl | rfl
    all_goals obtain ⟨rfl, rfl⟩ := Node.eq_of_at?_leaf rfl hz
    · exact .inr (.inl ⟨rfl, rfl⟩)
    · exact .inr (.inr ⟨rfl, rfl⟩)

theorem newAndOld_file (h : newAndOld.root.at? x = some (.file id)) :
    (x, id) ∈ [([Name.ofText ['f'], Name.ofText ['d']], 0),
      ([Name.ofText ['f'], Name.ofText ['e']], 1),
      ([Name.ofText ['g'], Name.ofText ['e']], 2)] := by
  rcases Node.at?_cases h with ⟨-, hroot⟩ | ⟨y, e, rfl, hmem, -⟩
  · cases hroot
  · rw [newAndOld, Node.entries, List.mem_pair] at hmem
    rcases hmem with rfl | rfl
    · rcases newAndOld_source h with ⟨-, hdir⟩ | ⟨rfl, hfile⟩
      · cases hdir
      · cases hfile
        decide
    · rcases newAndOld_dest h with ⟨-, hdir⟩ | ⟨rfl, hfile⟩ | ⟨rfl, hfile⟩
      · cases hdir
      all_goals
        cases hfile
        decide

theorem newAndOld_proper : Proper newAndOld where
  named := by
    have hfile (id : Nat) : (Node.file id).Named := Node.named_of_leaf rfl
    refine .dir (by decide) ?_
    simp only [List.forall_mem_cons, List.not_mem_nil, false_implies, implies_true, and_true]
    exact ⟨.dir (by decide) (by simp [hfile]), .dir (by decide) (by simp [hfile])⟩
  stored := by
    intro l id h
    have hmem := newAndOld_file h
    simp only [List.mem_cons, Prod.mk.injEq, List.not_mem_nil, or_false] at hmem
    have hlength : newAndOld.files.length = 3 := rfl
    omega

theorem newAndOld_fits : Fits newAndOld [Name.ofText ['d']] [Name.ofText ['e']] where
  plain := by
    intro x s h
    obtain ⟨n, hn, rfl⟩ := FileTree.at?_of_look h
    rcases newAndOld_source hn with ⟨rfl, hsight⟩ | ⟨rfl, rfl⟩
    · exact .inl (hsight ▸ rfl)
    · exact .inr rfl
  alike := by
    intro x s s' h h'
    obtain ⟨n, hn, rfl⟩ := FileTree.at?_of_look h
    obtain ⟨n', hn', rfl⟩ := FileTree.at?_of_look h'
    rcases newAndOld_source hn with ⟨rfl, hsight⟩ | ⟨rfl, rfl⟩
    · cases hn'
      rw [hsight]
      exact ⟨rfl, rfl⟩
    · cases hn'
      exact ⟨rfl, rfl⟩
  sole := by
    intro x id _ hid k hk
    have hmem := newAndOld_file hid
    have hmem' := newAndOld_file hk
    simp only [List.mem_cons, Prod.mk.injEq, List.not_mem_nil, or_false] at hmem hmem'
    rcases hmem with ⟨hx, rfl⟩ | ⟨hx, rfl⟩ | ⟨hx, rfl⟩ <;> simp_all

theorem newAndOld_unhindered : Unhindered newAndOld (['/', 'd'] : Path) [Name.ofText ['d']]
    (['/', 'e'] : Path) [Name.ofText ['e']] where
  readable := by
    intro x s h
    obtain ⟨n, hn, rfl⟩ := FileTree.at?_of_look h
    rcases newAndOld_source hn with ⟨rfl, hsight⟩ | ⟨rfl, rfl⟩
    · rw [hsight]
      rfl
    · rfl
  searched := by
    intro x c s h hc
    obtain ⟨n, hn, rfl⟩ := FileTree.at?_of_look h
    rcases newAndOld_source hn with ⟨rfl, hsight⟩ | ⟨rfl, rfl⟩
    · rw [hsight]
      rfl
    · exact absurd rfl hc
  rewritten := by
    intro x s s' _ _ h
    obtain ⟨n, hn, rfl⟩ := FileTree.at?_of_look h
    rcases newAndOld_dest hn with ⟨rfl, hsight⟩ | ⟨rfl, rfl⟩ | ⟨rfl, rfl⟩
    · rw [hsight]
      rfl
    all_goals rfl
  filled := by
    intro x c s hc h
    obtain ⟨s', hs'⟩ := Option.ne_none_iff_exists'.mp hc
    obtain ⟨m, hm, -⟩ := FileTree.at?_of_look hs'
    rcases newAndOld_source (y := c :: x) hm with ⟨hnil, -⟩ | ⟨heq, -⟩
    · cases hnil
    · obtain ⟨rfl, rfl⟩ := List.cons.inj heq
      cases h
      exact ⟨rfl, fun _ => rfl⟩
  way := by
    refine ⟨fun a k d hsuffix hd => ?_, by decide⟩
    obtain ⟨rfl, rfl⟩ : a = Name.ofText ['e'] ∧ k = [] := by
      have := hsuffix.eq_of_length_le (by simp)
      simpa using this
    cases hd
    exact ⟨rfl, rfl, fun _ => rfl⟩
  names := by
    intro x h
    obtain ⟨s, hs⟩ := Option.ne_none_iff_exists'.mp h
    obtain ⟨n, hn, -⟩ := FileTree.at?_of_look hs
    rcases newAndOld_source hn with ⟨rfl, -⟩ | ⟨rfl, -⟩
    all_goals decide

end NewAndOld

/-- A file is copied over an older one, and what else stands beside that one is kept. -/
theorem copyDir_overlaid_newAndOld :
    Proper newAndOld ∧ Path.IsTidy ['/', 'd'] ∧ Path.IsTidy ['/', 'e'] ∧
      Fits newAndOld [Name.ofText ['d']] [Name.ofText ['e']] ∧
      Unhindered newAndOld (['/', 'd'] : Path) [Name.ofText ['d']] (['/', 'e'] : Path)
        [Name.ofText ['e']] ∧
      ∃ t', copyDir 1 newAndOld (['/', 'd'] : Path) (['/', 'e'] : Path) = (t', .ok ()) ∧
        t'.look [Name.ofText ['f'], Name.ofText ['e']] = some (.file (some
          { bytes := Text.encode ['n', 'e', 'w'], mode := 0o644, changed := 1 })) ∧
        t'.look [Name.ofText ['g'], Name.ofText ['e']] =
          newAndOld.look [Name.ofText ['g'], Name.ofText ['e']] := by
  have htidy (n : Text) (hn : Path.IsName n) : Path.IsTidy (Path.join ['/'] n) := .join .root hn
  have hd := htidy ['d'] (by decide)
  have he := htidy ['e'] (by decide)
  have hfind (name : Name) (p : Path) (hp : FileTree.FromRoot p name)
      (hlink : (List.lookup name newAndOld.root.entries).any Node.isLink = false) :
      newAndOld.find true p = .ok (FileTree.lookedUp [] name newAndOld.root.entries) :=
    FileTree.find_fromRoot (by decide) newAndOld rfl hp hlink
  have hsource := hfind (Name.ofText ['d']) ['/', 'd'] (by decide) rfl
  have hdest := hfind (Name.ofText ['e']) ['/', 'e'] (by decide) rfl
  obtain ⟨t', hcopy, hover, -⟩ := copyDir_overlaid newAndOld_proper hd he hsource rfl
    (.found hdest rfl) ⟨by decide, by decide⟩ newAndOld_fits newAndOld_unhindered 1
  exact ⟨newAndOld_proper, hd, he, newAndOld_fits, newAndOld_unhindered, t', hcopy,
    hover.here [Name.ofText ['f']], hover.here [Name.ofText ['g']]⟩

end LineShell.Commands

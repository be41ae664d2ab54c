import LineShell.Proofs.Commands.Copy
import LineShell.Proofs.Files.Spelling

/-! Which directories a copying goes through. The tree grows while it does; but nothing comes into
the source that would be gone through, unless it is the copy of something that is gone through, and
so each directory is gone through once. -/

namespace LineShell.Commands

open FileTree (Destined Raised createDirAll_raised)
open Node (Grown)

/-- Copies a directory, and keeps the places of the directories that this goes through. -/
def copyDirVisits (now : Time) (s : FileTree × List Place) (source dest : Place) :
    (FileTree × List Place) × Except Failure Unit :=
  if Place.below source dest then
    (s, .error (Complaint.cannot .cp (.copyInto source.shown) : Failure))
  else match s.1.createDirAll now dest with
  | (t, some e) => ((t, s.2), .error (.io (.cannot .cp (.create dest.shown)) e))
  | (t, none) =>
    match h : t.list source with
    | .error e => ((t, s.2), .error (.io (.cannot .cp (.read source.shown)) e))
    | .ok entries =>
      let visitEntry (s : FileTree × List Place) (e : Name × Node) :
          (FileTree × List Place) × Except Failure Unit :=
        if e.2.isDir then
          have := Place.room_entry_lt h e.1
          copyDirVisits now s (source.entry e.1) (dest.entry e.1)
        else match s.1.copyFile now (source.entry e.1) (dest.entry e.1) with
          | .ok t => ((t, s.2), .ok ())
          | .error e' => (s, .error (.io (.cannot .cp (.copy (source.entry e.1).shown)) e'))
      match each visitEntry (t, s.2 ++ [source]) entries with
      | (s, .ok _) => (s, .ok ())
      | (s, .error f) => (s, .error f)
termination_by source.room

/-- Copies an entry of one directory into another one. -/
def visitEntry (now : Time) (source dest : Place) (s : FileTree × List Place) (e : Name × Node) :
    (FileTree × List Place) × Except Failure Unit :=
  if e.2.isDir then copyDirVisits now s (source.entry e.1) (dest.entry e.1)
  else match s.1.copyFile now (source.entry e.1) (dest.entry e.1) with
    | .ok t => ((t, s.2), .ok ())
    | .error e' => (s, .error (.io (.cannot .cp (.copy (source.entry e.1).shown)) e'))

section Run

variable {now : Time} {s : FileTree × List Place} {t : FileTree} {source dest : Place}
  {entries : List (Name × Node)}

theorem copyDirVisits_of_list (hbelow : ¬ Place.below source dest = true)
    (hdirs : s.1.createDirAll now dest = (t, none)) (hlist : t.list source = .ok entries) :
    copyDirVisits now s source dest =
      ((each (visitEntry now source dest) (t, s.2 ++ [source]) entries).1,
        (each (visitEntry now source dest) (t, s.2 ++ [source]) entries).2.map fun _ => ()) := by
  rw [copyDirVisits, if_neg hbelow, hdirs]
  simp only
  split
  case h_1 e he => rw [hlist] at he; cases he
  case h_2 entries' he =>
    rw [hlist] at he
    cases he
    split
    case h_1 s' done heach =>
      rw [show each (visitEntry now source dest) (t, s.2 ++ [source]) entries = (s', .ok done)
        from heach]
      rfl
    case h_2 s' f heach =>
      rw [show each (visitEntry now source dest) (t, s.2 ++ [source]) entries = (s', .error f)
        from heach]
      rfl

/-- Where nothing can be listed, nothing is gone through. -/
theorem copyDirVisits_of_no_list (hbelow : Place.below source dest = false)
    (h : ∀ t entries, s.1.createDirAll now dest = (t, none) → t.list source ≠ .ok entries) :
    (copyDirVisits now s source dest).1 = ((s.1.createDirAll now dest).1, s.2) ∧
      ∃ f, (copyDirVisits now s source dest).2 = .error f := by
  rw [copyDirVisits, if_neg (by simp [hbelow])]
  split
  case h_1 t e hdirs => exact ⟨by rw [hdirs], _, rfl⟩
  case h_2 t hdirs =>
    split
    case h_1 => exact ⟨by rw [hdirs], _, rfl⟩
    case h_2 entries hlist => exact absurd hlist (h t entries hdirs)

/-- Steps that keep something more come to the same. -/
theorem each_projected {σ τ α β ε : Type} {step : σ → α → σ × Except ε β}
    {detailed : τ → α → τ × Except ε β} (proj : τ → σ)
    (h : ∀ s a, step (proj s) a = (proj (detailed s a).1, (detailed s a).2)) (s : τ)
    (items : List α) : each step (proj s) items =
      (proj (each detailed s items).1, (each detailed s items).2) := by
  induction items generalizing s with
  | nil => rfl
  | cons a rest ih =>
    rw [each, each, h]
    obtain ⟨s', r⟩ := detailed s a
    cases r with
    | error e => rfl
    | ok b =>
      simp only
      rw [ih]
      obtain ⟨s'', r⟩ := each detailed s' rest
      cases r <;> rfl

/-- The copying of directories is the copying that keeps where it goes, with that left out. -/
theorem copyDir_eq_visits (now : Time) (s : FileTree × List Place) (source dest : Place) :
    copyDir now s.1 source dest =
      ((copyDirVisits now s source dest).1.1, (copyDirVisits now s source dest).2) := by
  fun_induction copyDirVisits now s source dest
  case case1 h => rw [copyDir, if_pos h]
  case case2 h t e hdirs => rw [copyDir, if_neg h, hdirs]
  case case3 h t hdirs e hlist =>
    rw [copyDir, if_neg h, hdirs]
    simp only
    split <;> simp_all
  case case4 s source dest h t hdirs entries hlist detailed s' done heach ih |
      case5 s source dest h t hdirs entries hlist detailed s' f heach ih =>
    have hentry : ∀ s e, copyEntry now source dest s.1 e =
        ((detailed s e).1.1, (detailed s e).2) := by
      intro s e
      simp only [copyEntry, detailed]
      split
      case isTrue => exact ih s e
      case isFalse => cases s.1.copyFile now (source.entry e.1) (dest.entry e.1) <;> rfl
    rw [copyDir_of_list h hdirs hlist,
      each_projected Prod.fst hentry (t, s.2 ++ [source]), heach]
    rfl

/-- What fails in a copying that is not refused fails by the system. -/
theorem copyDirVisits_error {f : Failure} (hbelow : Place.below source dest = false)
    (h : (copyDirVisits now s source dest).2 = .error f) : ∃ c e, f = .io c e := by
  fun_induction copyDirVisits now s source dest generalizing f
  case case1 habove => rw [hbelow] at habove; cases habove
  case case2 | case3 => cases h; exact ⟨_, _, rfl⟩
  case case4 => cases h
  case case5 s source dest _ t hdirs entries hlist detailed s' f' heach ih =>
    cases h
    refine (each_invariant (fun _ _ => True) (fun _ f => ∃ c e, f = .io c e)
      (fun done e rest s _ _ => ⟨fun _ _ _ => trivial, fun s' f hstep => ?_⟩) trivial).2 s' f' heach
    have hbelow' : Place.below (source.entry e.1) (dest.entry e.1) = false := by
      rw [Bool.eq_false_iff] at hbelow ⊢
      exact fun h => hbelow (Place.below_entry h)
    simp only [detailed] at hstep
    split at hstep
    case isTrue => exact ih s e hbelow' (by rw [hstep])
    case isFalse =>
      split at hstep
      case h_1 => cases hstep
      case h_2 => cases hstep; exact ⟨_, _, rfl⟩

end Run

/-- What comes into a tree when the directories of a kind are copied to a location: no link, and
directories only where these go, or above. -/
def Comes (may : Location → Prop) (l k : Location) (n : Node) : Prop :=
  n.isLink = false ∧ (n.isDir = true → ∃ r, may r ∧ k <:+ r ++ l)

/-- A tree while directories of a source at `a` are copied to `b`. What must be gone through is
there, what is there may be gone through, and this stays so whatever the copying adds. -/
structure Visiting (must may : Location → Prop) (t : FileTree) (source : Place) (a : Location)
    (dest : Place) (b : Location) : Prop where
  named : t.root.Named
  origin : t.Destined source a
  there : ∃ d, t.root.at? a = some d ∧ d.isDir = true
  goal : t.Destined dest b
  paths : source.path ≠ [] ∧ dest.path ≠ []
  held : ∀ r, must r → ∃ d, t.root.at? (r ++ a) = some d ∧ d.isDir = true
  allowed : ∀ r d, t.root.at? (r ++ a) = some d → d.isDir = true → may r
  back : ∀ r x, may r → x ++ a <:+ r ++ b → may x
  clear : ∀ r n, may r → t.root.at? (r ++ b) = some n → n.isLink = false

/-- A copying goes through directories once each, and only through those that it may go through. If
it succeeds, it has gone through all that it must. -/
structure VisitsOnce (must may : Location → Prop) (source : Place) (visited : List Place)
    (result : Except Failure Unit) : Prop where
  once : visited.Nodup
  inside : ∀ p ∈ visited, ∃ r, p = source.down r ∧ may r
  whole : result = .ok () → ∀ r, must r → source.down r ∈ visited

section Visiting

variable {must may : Location → Prop} {t t' : FileTree} {source dest : Place} {a b : Location}
  {now : Time}

theorem Visiting.grown (h : Visiting must may t source a dest b)
    (hgrown : Grown (Comes may b) t.root t'.root) : Visiting must may t' source a dest b where
  named := hgrown.named h.named
  origin := h.origin.grown hgrown fun _ _ hn => hn.1
  there := by
    obtain ⟨d, hd, hdir⟩ := h.there
    obtain ⟨d', hd', ha⟩ := hgrown.within _ d hd
    exact ⟨d', hd', ha.isDir ▸ hdir⟩
  goal := h.goal.grown hgrown fun _ _ hn => hn.1
  paths := h.paths
  held := by
    intro r hr
    obtain ⟨d, hd, hdir⟩ := h.held r hr
    obtain ⟨d', hd', ha⟩ := hgrown.within _ d hd
    exact ⟨d', hd', ha.isDir ▸ hdir⟩
  allowed := by
    intro r d hd hdir
    rcases hgrown.old_or_new hd with ⟨m, hm, ha⟩ | ⟨-, m, ⟨-, hcomes⟩, ha⟩
    · exact h.allowed r m hm (ha.isDir ▸ hdir)
    · obtain ⟨x, hx, hsuffix⟩ := hcomes (ha.isDir ▸ hdir)
      exact h.back x r hx hsuffix
  back := h.back
  clear := by
    intro r n hr hn
    rcases hgrown.old_or_new hn with ⟨m, hm, ha⟩ | ⟨-, m, ⟨hlink, -⟩, ha⟩
    · exact ha.isLink ▸ h.clear r m hr hm
    · exact ha.isLink ▸ hlink

theorem Visiting.may_here (h : Visiting must may t source a dest b) : may [] := by
  obtain ⟨d, hd, hdir⟩ := h.there
  exact h.allowed [] d hd hdir

/-- The directories that are made for the copy come where it goes. -/
theorem Visiting.comes (h : Visiting must may t source a dest b) (hraised : Raised now b t t') :
    Grown (Comes may b) t.root t'.root :=
  hraised.grown.mono fun _ _ hn => ⟨hn.2 ▸ rfl, fun _ => ⟨[], h.may_here, hn.1⟩⟩

/-- What is listed in the source is what is there. -/
theorem Visiting.listed (h : Visiting must may t source a dest b) {entries : List (Name × Node)}
    (hlist : t.list source = .ok entries) :
    (entries.map Prod.fst).Nodup ∧ ∀ name n, (name, n) ∈ entries ↔
      t.root.at? (name :: a) = some n := by
  obtain ⟨l, d, hfind, -, -, rfl⟩ := (FileTree.list_eq_ok_iff _ _ _).mp hlist
  obtain rfl : l = a := h.origin.spot hfind
  have hd : t.root.at? l = some d := FileTree.find_holds hfind
  exact ⟨h.named l d hd, fun name n => h.named.mem_entries_iff hd⟩

/-- A directory in the source is copied as the source is. -/
theorem Visiting.entry (h : Visiting must may t source a dest b) {name : Name} {d : Node}
    (hd : t.root.at? (name :: a) = some d) (hdir : d.isDir = true) :
    Visiting (fun r => must (r ++ [name])) (fun r => may (r ++ [name])) t (source.entry name)
      (name :: a) (dest.entry name) (name :: b) := by
  have hname : may [name] := h.allowed [name] d hd hdir
  have hcons (r l : Location) : r ++ name :: l = (r ++ [name]) ++ l := by simp
  exact
    { named := h.named
      origin := .under h.origin (source.under_entry name) (Place.nameable_of_entry h.paths.1)
        fun m hm => by
          rw [hd] at hm
          cases hm
          exact FileTree.isLink_of_isDir hdir
      there := ⟨d, hd, hdir⟩
      goal := .under h.goal (dest.under_entry name) (Place.nameable_of_entry h.paths.2)
        fun m hm => h.clear [name] m hname hm
      paths := h.paths
      held := fun r hr => hcons r a ▸ h.held (r ++ [name]) hr
      allowed := fun r d hd hdir => h.allowed (r ++ [name]) d (hcons r a ▸ hd) hdir
      back := fun r x hr hsuffix => h.back (r ++ [name]) (x ++ [name]) hr (by simpa using hsuffix)
      clear := fun r n hr hn => h.clear (r ++ [name]) n hr (hcons r b ▸ hn) }

/-- What comes with an entry comes with the directory. -/
theorem Comes.of_entry {name : Name} {k : Location} {n : Node}
    (h : Comes (fun r => may (r ++ [name])) (name :: b) k n) : Comes may b k n :=
  ⟨h.1, fun hdir => by
    obtain ⟨r, hr, hsuffix⟩ := h.2 hdir
    exact ⟨r ++ [name], hr, by simpa using hsuffix⟩⟩

/-- Places gone through below entries of a directory, none of them twice. -/
structure EntriesVisited (may : Location → Prop) (source : Place) (names : List Name)
    (visited : List Place) : Prop where
  once : visited.Nodup
  inside : ∀ p ∈ visited, ∃ name ∈ names, ∃ r, p = source.down (r ++ [name]) ∧ may (r ++ [name])

theorem EntriesVisited.append {names : List Name} {visited more : List Place} {name : Name}
    {result : Except Failure Unit} (h : EntriesVisited may source names visited)
    (hname : name ∉ names) (hmore : VisitsOnce must (fun r => may (r ++ [name]))
      (source.entry name) more result) :
    EntriesVisited may source (names ++ [name]) (visited ++ more) where
  once := by
    refine List.nodup_append.mpr ⟨h.once, hmore.once, ?_⟩
    rintro p hp _ hp' rfl
    obtain ⟨name', hname', r, rfl, -⟩ := h.inside p hp
    obtain ⟨r', hr', -⟩ := hmore.inside _ hp'
    rw [Place.entry_down] at hr'
    obtain ⟨-, hlast⟩ := List.append_inj' (source.down_injective hr') rfl
    obtain rfl := (List.cons.inj hlast).1
    exact hname hname'
  inside := by
    intro p hp
    rcases List.mem_append.mp hp with hp | hp
    · obtain ⟨name', hname', hr⟩ := h.inside p hp
      exact ⟨name', List.mem_append_left _ hname', hr⟩
    · obtain ⟨r, rfl, hr⟩ := hmore.inside p hp
      exact ⟨name, by simp, r, source.entry_down name r, hr⟩

/-- The source is gone through before its entries are. -/
theorem EntriesVisited.with_source {names : List Name} {visited : List Place}
    {result : Except Failure Unit} (h : EntriesVisited may source names visited) (hhere : may [])
    (hwhole : result = .ok () → ∀ r name, must (r ++ [name]) →
      source.down (r ++ [name]) ∈ visited) :
    VisitsOnce must may source (source :: visited) result where
  once := by
    refine List.nodup_cons.mpr ⟨fun hmem => ?_, h.once⟩
    obtain ⟨name, -, r, hr, -⟩ := h.inside source hmem
    have hnil : [] = r ++ [name] := source.down_injective hr
    simp at hnil
  inside := by
    intro p hp
    rcases List.mem_cons.mp hp with rfl | hp
    · exact ⟨[], rfl, hhere⟩
    · obtain ⟨name, -, r, hr⟩ := h.inside p hp
      exact ⟨r ++ [name], hr⟩
  whole := by
    intro hok r hr
    cases r using List.reverseRecOn with
    | nil => exact List.mem_cons_self
    | append_singleton r name _ => exact List.mem_cons_of_mem _ (hwhole hok r name hr)

/-- A run of the copying that goes through directories once each. -/
structure Traversed (must may : Location → Prop) (s s' : FileTree × List Place) (source : Place)
    (b : Location) (result : Except Failure Unit) : Prop where
  grown : Grown (Comes may b) s.1.root s'.1.root
  visited : ∃ visited, s'.2 = s.2 ++ visited ∧ VisitsOnce must may source visited result

/-- A run of the copying of a directory's entries, when some of them are done. -/
structure Kept (must may : Location → Prop) (t : FileTree) (log : List Place) (source : Place)
    (b : Location) (done : List (Name × Node)) (s : FileTree × List Place) : Prop where
  grown : Grown (Comes may b) t.root s.1.root
  visited : ∃ visited, s.2 = log ++ source :: visited ∧
    EntriesVisited may source (done.map Prod.fst) visited ∧
    ∀ e ∈ done, e.2.isDir = true → ∀ r, must (r ++ [e.1]) → source.down (r ++ [e.1]) ∈ visited

/-- The same when one of them has failed. -/
structure Left (may : Location → Prop) (t : FileTree) (log : List Place) (source : Place)
    (b : Location) (s : FileTree × List Place) : Prop where
  grown : Grown (Comes may b) t.root s.1.root
  visited : ∃ names visited, s.2 = log ++ source :: visited ∧
    EntriesVisited may source names visited

section Entries

variable {log : List Place} {done : List (Name × Node)} {e : Name × Node}
  {s s' : FileTree × List Place} {result : Except Failure Unit}

theorem Kept.left (h : Kept must may t log source b done s) : Left may t log source b s := by
  obtain ⟨hgrown, visited, hlog, hentries, -⟩ := h
  exact ⟨hgrown, _, visited, hlog, hentries⟩

/-- A directory is gone through. -/
theorem Kept.dir (h : Kept must may t log source b done s) (hnew : e.1 ∉ done.map Prod.fst)
    (hmore : Traversed (fun r => must (r ++ [e.1])) (fun r => may (r ++ [e.1])) s s'
      (source.entry e.1) (e.1 :: b) result) :
    (result = .ok () → Kept must may t log source b (done ++ [e]) s') ∧
      Left may t log source b s' := by
  obtain ⟨hgrown, visited, hlog, hentries, hwhole⟩ := h
  obtain ⟨hmore, more, hlog', hvisits⟩ := hmore
  have hgrown' := hgrown.trans (hmore.mono fun _ _ hn => hn.of_entry)
  have hentries' := hentries.append hnew hvisits
  have hlogs : s'.2 = log ++ source :: (visited ++ more) := by simp [hlog', hlog]
  refine ⟨fun hok => ⟨hgrown', _, hlogs, by simpa using hentries', ?_⟩,
    hgrown', _, _, hlogs, hentries'⟩
  intro e' he' hdir' r hr
  rcases List.mem_append.mp he' with he' | he'
  · exact List.mem_append_left _ (hwhole e' he' hdir' r hr)
  · obtain rfl := List.mem_singleton.mp he'
    exact List.mem_append_right _ (source.entry_down _ r ▸ hvisits.whole hok r hr)

/-- What is no directory is not gone through. -/
theorem Kept.file (h : Kept must may t log source b done s) (hfile : ¬ e.2.isDir = true)
    {t' : FileTree} (hmore : Grown (Comes may b) s.1.root t'.root) :
    Kept must may t log source b (done ++ [e]) (t', s.2) := by
  obtain ⟨hgrown, visited, hlog, hentries, hwhole⟩ := h
  refine ⟨hgrown.trans hmore, visited, hlog, ⟨hentries.once, ?_⟩, ?_⟩
  · intro p hp
    obtain ⟨name, hname, hr⟩ := hentries.inside p hp
    exact ⟨name, by simp [List.mem_map.mp hname], hr⟩
  · intro e' he' hdir' r hr
    rcases List.mem_append.mp he' with he' | he'
    · exact hwhole e' he' hdir' r hr
    · rw [List.mem_singleton.mp he'] at hdir'
      exact absurd hdir' hfile

/-- One entry is copied, where the copying of a directory is known to go through all below it. -/
theorem Kept.step (h : Kept must may t log source b done s) (hnew : e.1 ∉ done.map Prod.fst)
    (hdir : e.2.isDir = true → ∀ s' result,
      copyDirVisits now s (source.entry e.1) (dest.entry e.1) = (s', result) →
        Traversed (fun r => must (r ++ [e.1])) (fun r => may (r ++ [e.1])) s s' (source.entry e.1)
          (e.1 :: b) result)
    (hstep : visitEntry now source dest s e = (s', result)) :
    (result = .ok () → Kept must may t log source b (done ++ [e]) s') ∧
      Left may t log source b s' := by
  rw [visitEntry] at hstep
  split at hstep
  case isTrue hisDir => exact h.dir hnew (hdir hisDir s' result hstep)
  case isFalse hfile =>
    split at hstep
    case h_1 t' hcopy =>
      cases hstep
      have hfiled := h.file hfile ((FileTree.copyFile_grown hcopy).mono
        fun _ _ ⟨_, hn⟩ => ⟨hn ▸ rfl, by rw [hn]; rintro ⟨⟩⟩)
      exact ⟨fun _ => hfiled, hfiled.left⟩
    case h_2 =>
      cases hstep
      exact ⟨by rintro ⟨⟩, h.left⟩

/-- The entries of a directory are gone through after it, where the copying of each directory among
them is known to go through all below that. -/
theorem Visiting.entries_once (h : Visiting must may t source a dest b)
    {entries : List (Name × Node)} (hlist : t.list source = .ok entries)
    (hdir : ∀ (e : Name × Node) (s s' : FileTree × List Place) (result : Except Failure Unit),
      Visiting (fun r => must (r ++ [e.1])) (fun r => may (r ++ [e.1])) s.1 (source.entry e.1)
        (e.1 :: a) (dest.entry e.1) (e.1 :: b) →
      copyDirVisits now s (source.entry e.1) (dest.entry e.1) = (s', result) →
        Traversed (fun r => must (r ++ [e.1])) (fun r => may (r ++ [e.1])) s s' (source.entry e.1)
          (e.1 :: b) result)
    {result : Except Failure (List Unit)}
    (heach : each (visitEntry now source dest) (t, log ++ [source]) entries = (s', result)) :
    Grown (Comes may b) t.root s'.1.root ∧ ∃ visited, s'.2 = log ++ visited ∧
      VisitsOnce must may source visited (result.map fun _ => ()) := by
  obtain ⟨hnames, hentries⟩ := h.listed hlist
  have hstart : Kept must may t log source b [] (t, log ++ [source]) :=
    ⟨.refl, [], by simp, ⟨List.nodup_nil, by simp⟩, by simp⟩
  have hstep (done : List (Name × Node)) (e : Name × Node) (rest : List (Name × Node))
      (s₁ : FileTree × List Place) (hsplit : entries = done ++ e :: rest)
      (hkept : Kept must may t log source b done s₁) :
      (∀ s₂ u, visitEntry now source dest s₁ e = (s₂, .ok u) →
        Kept must may t log source b (done ++ [e]) s₂) ∧
      ∀ s₂ (f : Failure), visitEntry now source dest s₁ e = (s₂, .error f) →
        Left may t log source b s₂ := by
    have hnew : e.1 ∉ done.map Prod.fst := by
      rw [hsplit, List.map_append, List.nodup_append] at hnames
      exact fun hmem => hnames.2.2 _ hmem _ (by simp) rfl
    have hrun (s₂ : FileTree × List Place) (r : Except Failure Unit)
        (hentry : visitEntry now source dest s₁ e = (s₂, r)) :
        (r = .ok () → Kept must may t log source b (done ++ [e]) s₂) ∧
          Left may t log source b s₂ := by
      refine hkept.step hnew (fun hisDir s₂ r => hdir e s₁ s₂ r ?_) hentry
      have hat := (hentries e.1 e.2).mp (by rw [hsplit]; simp)
      obtain ⟨d, hd, ha⟩ := hkept.grown.within _ _ hat
      exact (h.grown hkept.grown).entry hd (ha.isDir ▸ hisDir)
    exact ⟨fun s₂ u hentry => (hrun s₂ _ hentry).1 rfl, fun s₂ f hentry => (hrun s₂ _ hentry).2⟩
  obtain ⟨hok, herror⟩ := each_invariant (Kept must may t log source b)
    (fun s₂ _ => Left may t log source b s₂) hstep hstart
  cases result with
  | ok us =>
    obtain ⟨hgrown, visited, hlog, hvisited, hwhole⟩ := hok _ _ heach
    refine ⟨hgrown, _, hlog, hvisited.with_source h.may_here ?_⟩
    intro _ r name hr
    obtain ⟨d, hd, hddir⟩ := h.held _ hr
    rw [List.append_assoc] at hd
    obtain ⟨n, hn, hndir⟩ := Node.isDir_above hd hddir
    exact hwhole (name, n) ((hentries name n).mpr hn) hndir r hr
  | error f =>
    obtain ⟨hgrown, names, visited, hlog, hvisited⟩ := herror _ _ heach
    exact ⟨hgrown, _, hlog, hvisited.with_source h.may_here (by rintro ⟨⟩)⟩

end Entries

/-- The copying of a source that is not refused goes through its directories once each. -/
theorem copyDirVisits_once {s s' : FileTree × List Place} {result : Except Failure Unit}
    (h : Visiting must may s.1 source a dest b) (hbelow : Place.below source dest = false)
    (hrun : copyDirVisits now s source dest = (s', result)) :
    Traversed must may s s' source b result := by
  -- the recursion is on the room that the path of the source leaves for names below it
  induction hroom : source.room using Nat.strong_induction_on
    generalizing must may s a b source dest s' result with
  | _ room ih =>
    have hraised : Raised now b s.1 (s.1.createDirAll now dest).1 := createDirAll_raised h.goal
    have hadded := h.comes hraised
    by_cases hgoes : ∃ t entries, s.1.createDirAll now dest = (t, none) ∧
        t.list source = .ok entries
    case neg =>
      obtain ⟨hs, f, hf⟩ := copyDirVisits_of_no_list hbelow
        (fun t entries hdirs hlist => hgoes ⟨t, entries, hdirs, hlist⟩)
      rw [hrun] at hs hf
      obtain rfl : s' = _ := hs
      exact ⟨hadded, [], by simp, by simp, by simp, by rintro hok; cases hf.symm.trans hok⟩
    case pos =>
      obtain ⟨t, entries, hdirs, hlist⟩ := hgoes
      rw [hdirs] at hadded
      rw [copyDirVisits_of_list (by simp [hbelow]) hdirs hlist] at hrun
      cases heach : each (visitEntry now source dest) (t, s.2 ++ [source]) entries with
      | mk s₁ r =>
        rw [heach] at hrun
        cases hrun
        obtain ⟨hgrown, hvisited⟩ := (h.grown hadded).entries_once hlist
          (fun e s s' result hvisiting hentry => by
            refine ih _ (hroom ▸ Place.room_entry_lt hlist e.1) hvisiting ?_ hentry rfl
            rw [Bool.eq_false_iff] at hbelow ⊢
            exact fun h => hbelow (Place.below_entry h)) heach
        exact ⟨hadded.trans hgrown, hvisited⟩

end Visiting

/-- A directory is at a location below a node. -/
def HasDir (n : Node) (r : Location) : Prop :=
  ∃ d, n.at? r = some d ∧ d.isDir = true

/-- The directories that are gone through when the directory `n` at `a` is copied to `b`: those that
it has; and if it stands in its own copy, those of its directories that are copied into it. -/
def Ways (n : Node) (a b r : Location) : Prop :=
  ∃ outer, HasDir n (r ++ outer) ∧ (¬ b <:+ a → outer = [])

section Directory

variable {s : Setting} {w : Workspace} {destTyped typed : Text} {t : FileTree} {a b : Location}
  {n : Node} {dest : Path}

theorem HasDir.above {x r : Location} (h : HasDir n (x ++ r)) : HasDir n r := by
  obtain ⟨d, hd, hdir⟩ := h
  exact Node.isDir_above hd hdir

theorem visiting_of_find {source dest : Place} (hnamed : t.root.Named)
    (hsource : t.find true source = .ok (.entry a n)) (hdir : n.isDir = true)
    (hdest : t.Destined dest b) (hpaths : source.path ≠ [] ∧ dest.path ≠ [])
    (hinside : ¬ a <:+ b)
    (hlinks : ∀ r m, Ways n a b r → t.root.at? (r ++ b) = some m → m.isLink = false) :
    Visiting (HasDir n) (Ways n a b) t source a dest b := by
  have ha : t.root.at? a = some n := FileTree.find_holds hsource
  have hat (r : Location) : t.root.at? (r ++ a) = n.at? r := by
    rw [Node.at?_append, ha]
    rfl
  exact
    { named := hnamed
      origin := .found hsource hdir
      there := ⟨n, ha, hdir⟩
      goal := hdest
      paths := hpaths
      held := fun r ⟨d, hd, hddir⟩ => ⟨d, (hat r).trans hd, hddir⟩
      allowed := fun r d hd hddir => ⟨[], ⟨d, by rwa [List.append_nil, ← hat], hddir⟩, fun _ => rfl⟩
      back := by
        rintro r x ⟨outer, hd, -⟩ ⟨y, hy⟩
        have hmeet : b <:+ y ++ (x ++ a) := hy ▸ List.suffix_append r b
        -- the copy is made above the source, so that it comes into the source at its own places
        obtain ⟨z, rfl⟩ : b <:+ a := by
          rcases List.suffix_or_suffix_of_suffix hmeet
            ((List.suffix_append x a).trans (List.suffix_append y _)) with hb | hb
          · exact hb
          · exact absurd hb hinside
        have hr : r = y ++ (x ++ z) := by
          refine (List.append_left_inj b).mp ?_
          simpa using hy.symm
        refine ⟨z ++ outer, ?_, fun hb => absurd (List.suffix_append z b) hb⟩
        rw [hr] at hd
        have hd' : HasDir n (y ++ (x ++ (z ++ outer))) := by simpa using hd
        exact hd'.above
      clear := hlinks }

/-- The copying of one source that is a directory. -/
theorem copy_of_find (hsource : t.find true (w.resolve s typed) = .ok (.entry a n))
    (hdir : n.isDir = true)
    (hdest : destination t (w.resolve s typed) (w.resolve s destTyped) = .ok dest) :
    copy s w true destTyped t typed = ((copyDir s.now t (w.resolve s typed) dest).1,
      (copyDir s.now t (w.resolve s typed) dest).2.map fun _ =>
        "Directory copied: " ++ w.resolve s typed ++ " -> " ++ dest) := by
  have hthere : t.isThere (w.resolve s typed) = true := by
    simp [FileTree.isThere, FileTree.node, hsource, Except.toOption]
  have hisDir : t.isDir (w.resolve s typed) = true := (FileTree.isDir_of_find hsource).trans hdir
  simp only [copy, hthere, hisDir, hdest, Bool.not_true, Bool.false_eq_true, if_false, if_true]
  obtain ⟨t', r⟩ := copyDir s.now t (w.resolve s typed) dest
  cases r <;> rfl

theorem isTidy_of_destination {source destPath : Path} (hsource : source.IsTidy)
    (hdestPath : destPath.IsTidy) (h : destination t source destPath = .ok dest) :
    dest.IsTidy := by
  rw [destination] at h
  split at h
  case isFalse => cases h; exact hdestPath
  case isTrue =>
    split at h
    case h_2 => cases h
    case h_1 name hname =>
      cases h
      refine hdestPath.join ?_
      cases hsource with
      | root => cases hname
      | @join p n hp hn =>
        rw [Path.fileName?, Path.components_of_isAbsolute (hp.join hn).isNormal.absolute,
          Path.names_join hp.isNormal.absolute hn, List.map_append, List.map_singleton,
          hn.ofText_eq, ← List.cons_append, List.getLast?_concat] at hname
        cases hname
        exact hn

/-- What `cp -r` makes of a directory. It refuses it, before it changes anything, exactly where the
path for the copy begins with its path; where both paths lead where they are spelled, this is where
the copy would be made in the directory itself. Any other failure is one of the system, and nothing
is gone through or changed where there is no place for the copy. Where that place is not in the
directory, and no link stands where a directory is to be copied to, each directory is gone through
once, and all of them unless the copying fails. -/
theorem copy_directory (hnamed : t.root.Named) (hcwd : w.cwd.IsTidy)
    (hsource : t.find true (w.resolve s typed) = .ok (.entry a n)) (hdir : n.isDir = true) :
    (∀ f, destination t (w.resolve s typed) (w.resolve s destTyped) = .error f →
      copy s w true destTyped t typed = (t, .error f)) ∧
    ∀ dest, destination t (w.resolve s typed) (w.resolve s destTyped) = .ok dest →
      ∃ t' visited result,
        copyDirVisits s.now (t, []) (w.resolve s typed) dest = ((t', visited), result) ∧
        copy s w true destTyped t typed = (t', result.map fun _ =>
          "Directory copied: " ++ w.resolve s typed ++ " -> " ++ dest) ∧
        (Place.below (w.resolve s typed) dest = true → t' = t ∧ visited = [] ∧
          result = .error (Complaint.cannot .cp (.copyInto (w.resolve s typed)))) ∧
        (Place.below (w.resolve s typed) dest = false →
          ∀ f, result = .error f → ∃ c e, f = .io c e) ∧
        ((∀ b, ¬ t.Destined dest b) → t' = t ∧ visited = [] ∧ ∃ f, result = .error f) ∧
        ∀ b, t.Destined dest b →
          (a = Path.spot (w.resolve s typed) → b = Path.spot dest →
            (Place.below (w.resolve s typed) dest = true ↔ a <:+ b)) ∧
          (Place.below (w.resolve s typed) dest = false → ¬ a <:+ b →
            (∀ r m, Ways n a b r → t.root.at? (r ++ b) = some m → m.isLink = false) →
            VisitsOnce (HasDir n) (Ways n a b) (w.resolve s typed) visited result) := by
  have htidy (typed : Text) : (w.resolve s typed).IsTidy :=
    Path.isClosed_isTidy.resolve hcwd s.home typed
  refine ⟨fun f hdest => ?_, fun dest hdest => ?_⟩
  · have hthere : t.isThere (w.resolve s typed) = true := by
      simp [FileTree.isThere, FileTree.node, hsource, Except.toOption]
    simp only [copy, hthere, hdest, Bool.not_true, Bool.false_eq_true, if_false]
  have hdestTidy := isTidy_of_destination (htidy typed) (htidy destTyped) hdest
  cases hrun : copyDirVisits s.now (t, []) (w.resolve s typed) dest with
  | mk final result =>
    obtain ⟨t', visited⟩ := final
    have hcopy := copyDir_eq_visits s.now (t, []) (w.resolve s typed) dest
    rw [hrun] at hcopy
    refine ⟨t', visited, result, rfl, ?_, ?_, ?_, ?_, fun b hb => ⟨?_, ?_⟩⟩
    · rw [copy_of_find hsource hdir hdest, hcopy]
    · intro hbelow
      rw [copyDirVisits, if_pos hbelow] at hrun
      cases hrun
      exact ⟨rfl, rfl, rfl⟩
    · rintro hbelow f rfl
      exact copyDirVisits_error hbelow (congrArg Prod.snd hrun)
    · intro hno
      obtain ⟨e, hdirs⟩ := FileTree.createDirAll_placeless hdestTidy
        (FileTree.passable_of_find (htidy typed) hsource) hno s.now
      rw [copyDirVisits] at hrun
      split at hrun
      case isTrue => cases hrun; exact ⟨rfl, rfl, _, rfl⟩
      case isFalse =>
        rw [hdirs] at hrun
        cases hrun
        exact ⟨rfl, rfl, _, rfl⟩
    · rintro rfl rfl
      exact (htidy typed).below_iff hdestTidy
    · intro hbelow hinside hlinks
      have hpaths := Path.ne_nil_of_isAbsolute (htidy typed).isNormal.absolute
      obtain ⟨-, more, hlog, hvisits⟩ := copyDirVisits_once (visiting_of_find hnamed hsource hdir hb
        ⟨hpaths, Path.ne_nil_of_isAbsolute hdestTidy.isNormal.absolute⟩ hinside hlinks) hbelow hrun
      obtain rfl : visited = more := hlog
      exact hvisits

end Directory

/-- A tree with one directory, and nothing in it. -/
def withDirectory : Workspace where
  cwd := ['/']
  tree := { root := .dir 0o755 0 [(Name.ofText ['d'], .dir 0o755 0 [])], files := [] }

theorem copy_directory_beside :
    withDirectory.tree.root.Named ∧ withDirectory.cwd.IsTidy ∧
      withDirectory.tree.find true (['/', 'd'] : Path) =
        .ok (.entry [Name.ofText ['d']] (.dir 0o755 0 [])) ∧
      (Node.dir 0o755 0 []).isDir = true ∧
      ∃ t' visited result,
        copyDirVisits 1 (withDirectory.tree, []) (['/', 'd'] : Path) (['/', 'e'] : Path) =
          ((t', visited), result) ∧
        copy plainSetting withDirectory true ['e'] withDirectory.tree ['d'] =
          (t', result.map fun _ => "Directory copied: " ++ ['/', 'd'] ++ " -> " ++ ['/', 'e']) ∧
        VisitsOnce (HasDir (.dir 0o755 0 []))
          (Ways (.dir 0o755 0 []) [Name.ofText ['d']] [Name.ofText ['e']]) (['/', 'd'] : Path)
          visited result := by
  have hnamed : withDirectory.tree.root.Named :=
    .dir (by decide) (by simpa using Node.named_of_leaf rfl)
  have hfind (name : Name) (p : Path) (hp : FileTree.FromRoot p name)
      (hlink : (List.lookup name withDirectory.tree.root.entries).any Node.isLink = false) :
      withDirectory.tree.find true p =
        .ok (FileTree.lookedUp [] name withDirectory.tree.root.entries) :=
    FileTree.find_fromRoot (by decide) withDirectory.tree rfl hp hlink
  have hd := hfind (Name.ofText ['d']) ['/', 'd'] (by decide) rfl
  have he : withDirectory.tree.find true (['/', 'e'] : Path) =
      .ok (.vacant [] (Name.ofText ['e'])) := hfind (Name.ofText ['e']) ['/', 'e'] (by decide) rfl
  have hpass : FileTree.Passable withDirectory.tree.root [] := ⟨_, rfl, rfl, rfl⟩
  have hroot : withDirectory.tree.find true (['/'] : Path) =
      .ok (.entry [] withDirectory.tree.root) :=
    (FileTree.find_eq_ok_iff _ _ _ _).mpr ⟨by decide, .root hpass (.arrived rfl)⟩
  have hplace : withDirectory.tree.Destined (['/', 'e'] : Path) [Name.ofText ['e']] :=
    .under (.found hroot rfl) (Path.IsTidy.root.under_join (by decide)) (fun _ => by decide)
      (by rintro _ ⟨⟩)
  have hdest : destination withDirectory.tree (withDirectory.resolve plainSetting ['d'])
      (withDirectory.resolve plainSetting ['e']) = .ok ['/', 'e'] := by
    have hdir : withDirectory.tree.isDir (['/', 'e'] : Path) = false := by
      simp [FileTree.isDir, FileTree.node, he, Except.toOption]
    have hresolve : withDirectory.resolve plainSetting ['e'] = ['/', 'e'] := by decide
    rw [hresolve, destination, hdir]
    rfl
  have hsource : withDirectory.resolve plainSetting ['d'] = ['/', 'd'] := by decide
  have hfound : withDirectory.tree.find true (withDirectory.resolve plainSetting ['d']) =
      .ok (.entry [Name.ofText ['d']] (.dir 0o755 0 [])) := hsource ▸ hd
  obtain ⟨t', visited, result, hrun, hcopy, -, -, -, honce⟩ :=
    (copy_directory hnamed .root hfound rfl).2 _ hdest
  rw [hsource] at hrun hcopy honce
  refine ⟨hnamed, .root, hd, rfl, t', visited, result, hrun, hcopy, ?_⟩
  refine (honce _ hplace).2 (by decide) (by decide) fun r m _ hm => ?_
  rw [Node.at?_below_none (show withDirectory.tree.root.at? [Name.ofText ['e']] = none from rfl)]
    at hm
  cases hm

/-- The tree of the root directory alone, but for a directory and a link to where both stand. -/
def withWayRound : Workspace where
  cwd := ['/']
  tree :=
    { root := .dir 0o755 0
        [(Name.ofText ['d'], .dir 0o755 0 []), (Name.ofText ['l'], .link ['.'] 0)]
      files := [] }

/-- A directory is copied into itself by a path that leads round a link, and nothing refuses it. -/
theorem copy_directory_wayRound :
    withWayRound.tree.find true (['/', 'd'] : Path) =
        .ok (.entry [Name.ofText ['d']] (.dir 0o755 0 [])) ∧
      withWayRound.tree.find true (['/', 'l', '/', 'd'] : Path) =
        .ok (.entry [Name.ofText ['d']] (.dir 0o755 0 [])) ∧
      copy plainSetting withWayRound true ['l'] withWayRound.tree ['d'] =
        (withWayRound.tree,
          .ok ("Directory copied: " ++ ['/', 'd'] ++ " -> " ++ ['/', 'l', '/', 'd'])) := by
  have hpass : FileTree.Passable withWayRound.tree.root [] := ⟨_, rfl, rfl, rfl⟩
  have hlink : withWayRound.tree.root.at? [Name.ofText ['l']] = some (.link ['.'] 0) := rfl
  have hdirectory : withWayRound.tree.root.at? [Name.ofText ['d']] = some (.dir 0o755 0 []) := rfl
  have hd : withWayRound.tree.find true (['/', 'd'] : Path) =
      .ok (.entry [Name.ofText ['d']] (.dir 0o755 0 [])) := by
    have hwalked : Place.walked (['/', 'd'] : Path) = [.root, .name (Name.ofText ['d'])] := by
      decide
    refine (FileTree.find_eq_ok_iff _ _ _ _).mpr ⟨by decide, ?_⟩
    rw [hwalked]
    exact .root hpass (.enter hpass (by decide) hdirectory rfl (.arrived hdirectory))
  have hl : withWayRound.tree.find true (['/', 'l'] : Path) =
      .ok (.entry [] withWayRound.tree.root) := by
    have hwalked : Place.walked (['/', 'l'] : Path) = [.root, .name (Name.ofText ['l'])] := by
      decide
    refine (FileTree.find_eq_ok_iff _ _ _ _).mpr ⟨by decide, ?_⟩
    rw [hwalked]
    exact .root hpass (.follow hpass (by decide) hlink (fun _ => rfl) (.here hpass (.stay rfl rfl)))
  have hld : withWayRound.tree.find true (['/', 'l', '/', 'd'] : Path) =
      .ok (.entry [Name.ofText ['d']] (.dir 0o755 0 [])) := by
    have hwalked : Place.walked (['/', 'l', '/', 'd'] : Path) =
        [.root, .name (Name.ofText ['l']), .name (Name.ofText ['d'])] := by
      decide
    refine (FileTree.find_eq_ok_iff _ _ _ _).mpr ⟨by decide, ?_⟩
    rw [hwalked]
    exact .root hpass (.follow hpass (by decide) hlink (fun h => absurd h (by simp))
      (.here hpass (.enter hpass (by decide) hdirectory rfl (.arrived hdirectory))))
  refine ⟨hd, hld, ?_⟩
  have hsource : withWayRound.resolve plainSetting ['d'] = ['/', 'd'] := by decide
  have hdestPath : withWayRound.resolve plainSetting ['l'] = ['/', 'l'] := by decide
  have hdest : destination withWayRound.tree (withWayRound.resolve plainSetting ['d'])
      (withWayRound.resolve plainSetting ['l']) = .ok ['/', 'l', '/', 'd'] := by
    rw [hsource, hdestPath, destination, FileTree.isDir_of_find hl]
    rfl
  have hlist : withWayRound.tree.list (['/', 'd'] : Path) = .ok [] :=
    (FileTree.list_eq_ok_iff _ _ _).mpr ⟨_, _, hd, rfl, rfl, rfl⟩
  have hmade : withWayRound.tree.createDirAll plainSetting.now (['/', 'l', '/', 'd'] : Path) =
      (withWayRound.tree, none) := FileTree.createDirs_of_find hld rfl [] _
  rw [copy_of_find (hsource ▸ hd) rfl hdest, hsource, copyDir_of_list (by decide) hmade hlist]
  rfl

end LineShell.Commands

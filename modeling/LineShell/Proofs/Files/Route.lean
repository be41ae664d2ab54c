import LineShell.Proofs.Files.Resolve
import LineShell.Proofs.Files.Walk

/-! How far a walk comes along a part of a path. A path is gone along in parts, one behind the
other, and what its lone dots ask for is asked for anyway where something stands behind them. -/

namespace LineShell.FileTree

/-- The components that a path spells, as they are walked through. -/
def route (p : Path) : List (Component Name) :=
  (Path.spelled p).map (.map Name.ofText)

/-- The components that stand between slashes. -/
def routeAlong (ns : List Text) : List (Component Name) :=
  ns.map fun n => (Component.ofText n).map Name.ofText

/-- From the directory at a location, with so many links left to follow, the components lead on to a
location, with so many links left then. -/
inductive Goes (root : Node) :
    Nat → Location → List (Component Name) → Nat → Location → Prop where
  | done {links : Nat} {l : Location} : Goes root links l [] links l
  | root {links links' : Nat} {l l' : Location} {rest : List (Component Name)}
    (hl : Passable root l) (hrest : Goes root links [] rest links' l') :
    Goes root links l (.root :: rest) links' l'
  | here {links links' : Nat} {l l' : Location} {rest : List (Component Name)}
    (hl : Passable root l) (hrest : Goes root links l rest links' l') :
    Goes root links l (.here :: rest) links' l'
  | up {links links' : Nat} {l l' : Location} {rest : List (Component Name)}
    (hl : Passable root l) (hrest : Goes root links l.tail rest links' l') :
    Goes root links l (.up :: rest) links' l'
  | follow {links links' : Nat} {l l' : Location} {name : Name} {p : Path} {changed : Time}
    {rest : List (Component Name)} (hl : Passable root l) (hsize : name.size ≤ nameLimit)
    (hname : root.at? (name :: l) = some (.link p changed))
    (hrest : Goes root links l (route p ++ rest) links' l') :
    Goes root (links + 1) l (.name name :: rest) links' l'
  | enter {links links' : Nat} {l l' : Location} {name : Name} {m : Node}
    {rest : List (Component Name)} (hl : Passable root l) (hsize : name.size ≤ nameLimit)
    (hname : root.at? (name :: l) = some m) (hlink : m.isLink = false)
    (hrest : Goes root links (name :: l) rest links' l') :
    Goes root links l (.name name :: rest) links' l'

theorem onward_of_ne_nil (p : Path) {rest : List (Component Name)} (h : rest ≠ []) :
    onward p rest = route p ++ rest := by
  rw [onward, if_neg (by simpa using h), route]

theorem onward_nil (p : Path) :
    onward p [] = route p ++ if Path.stays p then [.here] else [] := by
  rw [onward, if_pos List.isEmpty_nil, List.append_nil, Path.allComponents, List.map_append, route]
  split <;> rfl

variable {root : Node} {follow : Bool} {links links' : Nat} {l l' : Location}
  {cs ds : List (Component Name)} {c : Component Name} {target : Target} {n : Node}

section Parts

/-- A part of a way is gone along, and then the rest of it. -/
theorem goes_append_iff : Goes root links l (cs ++ ds) links' l' ↔
    ∃ k m, Goes root links l cs k m ∧ Goes root k m ds links' l' := by
  constructor
  · intro h
    generalize htodo : cs ++ ds = todo at h
    -- what is left of the first part changes: a link that is followed puts its own way in front
    induction h generalizing cs with
    | done =>
      obtain ⟨rfl, rfl⟩ := List.append_eq_nil_iff.mp htodo
      exact ⟨_, _, .done, .done⟩
    | root hl hrest ih | here hl hrest ih | up hl hrest ih =>
      rcases List.append_eq_cons_iff.mp htodo with ⟨rfl, rfl⟩ | ⟨cs, rfl, rfl⟩
      · exact ⟨_, _, .done, by constructor <;> assumption⟩
      · obtain ⟨k, m, hfirst, hthen⟩ := ih rfl
        exact ⟨k, m, by constructor <;> assumption, hthen⟩
    | follow hl hsize hname hrest ih =>
      rcases List.append_eq_cons_iff.mp htodo with ⟨rfl, rfl⟩ | ⟨cs, rfl, rfl⟩
      · exact ⟨_, _, .done, .follow hl hsize hname hrest⟩
      · obtain ⟨k, m, hfirst, hthen⟩ := ih (List.append_assoc _ _ _)
        exact ⟨k, m, .follow hl hsize hname hfirst, hthen⟩
    | enter hl hsize hname hlink hrest ih =>
      rcases List.append_eq_cons_iff.mp htodo with ⟨rfl, rfl⟩ | ⟨cs, rfl, rfl⟩
      · exact ⟨_, _, .done, .enter hl hsize hname hlink hrest⟩
      · obtain ⟨k, m, hfirst, hthen⟩ := ih rfl
        exact ⟨k, m, .enter hl hsize hname hlink hfirst, hthen⟩
  · rintro ⟨k, m, hfirst, hthen⟩
    induction hfirst with
    | done => exact hthen
    | root hl _ ih => exact .root hl (ih hthen)
    | here hl _ ih => exact .here hl (ih hthen)
    | up hl _ ih => exact .up hl (ih hthen)
    | follow hl hsize hname _ ih =>
      exact .follow hl hsize hname (by simpa using ih hthen)
    | enter hl hsize hname hlink _ ih => exact .enter hl hsize hname hlink (ih hthen)

theorem goes_cons_iff : Goes root links l (c :: cs) links' l' ↔
    ∃ k m, Goes root links l [c] k m ∧ Goes root k m cs links' l' := by
  rw [← List.singleton_append, goes_append_iff]

/-- Something leads to a target behind a part of the way just where that part is gone along. -/
theorem leads_append_iff (hds : ds ≠ []) : Leads root follow links l (cs ++ ds) target ↔
    ∃ k m, Goes root links l cs k m ∧ Leads root follow k m ds target := by
  constructor
  · intro h
    generalize htodo : cs ++ ds = todo at h
    induction h generalizing cs with
    | arrived => exact absurd (List.append_eq_nil_iff.mp htodo).2 hds
    | root hl hrest ih | here hl hrest ih | up hl hrest ih =>
      rcases List.append_eq_cons_iff.mp htodo with ⟨rfl, rfl⟩ | ⟨cs, rfl, rfl⟩
      · exact ⟨_, _, .done, by constructor <;> assumption⟩
      · obtain ⟨k, m, hfirst, hthen⟩ := ih rfl
        exact ⟨k, m, by constructor <;> assumption, hthen⟩
    | stay hn hdir =>
      rcases List.append_eq_singleton_iff.mp htodo with ⟨rfl, rfl⟩ | ⟨-, rfl⟩
      · exact ⟨_, _, .done, .stay hn hdir⟩
      · exact absurd rfl hds
    | vacant | link =>
      rcases List.append_eq_singleton_iff.mp htodo with ⟨rfl, rfl⟩ | ⟨-, rfl⟩
      · exact ⟨_, _, .done, by constructor <;> assumption⟩
      · exact absurd rfl hds
    | @follow _ _ _ p _ _ _ hl hsize hname hfollow hrest ih =>
      rcases List.append_eq_cons_iff.mp htodo with ⟨rfl, rfl⟩ | ⟨cs, rfl, rfl⟩
      · exact ⟨_, _, .done, .follow hl hsize hname hfollow hrest⟩
      · have honward : (route p ++ cs) ++ ds = onward p (cs ++ ds) := by
          rw [onward_of_ne_nil p (by simp [hds]), List.append_assoc]
        obtain ⟨k, m, hfirst, hthen⟩ := ih honward
        exact ⟨k, m, .follow hl hsize hname hfirst, hthen⟩
    | enter hl hsize hname hlink hrest ih =>
      rcases List.append_eq_cons_iff.mp htodo with ⟨rfl, rfl⟩ | ⟨cs, rfl, rfl⟩
      · exact ⟨_, _, .done, .enter hl hsize hname hlink hrest⟩
      · obtain ⟨k, m, hfirst, hthen⟩ := ih rfl
        exact ⟨k, m, .enter hl hsize hname hlink hfirst, hthen⟩
  · rintro ⟨k, m, hfirst, hthen⟩
    induction hfirst with
    | done => exact hthen
    | root hl _ ih => exact .root hl (ih hthen)
    | here hl _ ih => exact .here hl (ih hthen)
    | up hl _ ih => exact .up hl (ih hthen)
    | @follow _ _ _ _ _ p _ rest hl hsize hname _ ih =>
      have hmore : rest ++ ds ≠ [] := by simp [hds]
      have hnext := ih hthen
      rw [List.append_assoc, ← onward_of_ne_nil p hmore] at hnext
      exact .follow hl hsize hname (fun hnil => absurd hnil hmore) hnext
    | enter hl hsize hname hlink _ ih => exact .enter hl hsize hname hlink (ih hthen)

theorem Goes.unique {k k' : Nat} {m m' : Location} (h : Goes root links l cs k m)
    (h' : Goes root links l cs k' m') : k = k' ∧ m = m' := by
  induction h with
  | done =>
    cases h'
    exact ⟨rfl, rfl⟩
  | root _ _ ih =>
    cases h' with
    | root _ hrest => exact ih hrest
  | here _ _ ih =>
    cases h' with
    | here _ hrest => exact ih hrest
  | up _ _ ih =>
    cases h' with
    | up _ hrest => exact ih hrest
  | follow _ _ hname _ ih =>
    cases h' with
    | follow _ _ hname' hrest =>
      obtain ⟨rfl, -⟩ := Node.link.inj (Option.some.inj (hname.symm.trans hname'))
      exact ih hrest
    | enter _ _ hname' hlink _ =>
      cases hname.symm.trans hname'
      cases hlink
  | enter _ _ hname hlink _ ih =>
    cases h' with
    | follow _ _ hname' _ =>
      cases hname.symm.trans hname'
      cases hlink
    | enter _ _ _ _ hrest => exact ih hrest

end Parts

section Dots

theorem Goes.passable (h : Goes root links l (c :: cs) links' l') : Passable root l := by
  cases h <;> assumption

theorem goes_here_iff :
    Goes root links l (.here :: cs) links' l' ↔
      Passable root l ∧ Goes root links l cs links' l' := by
  constructor
  · rintro ⟨⟩
    constructor <;> assumption
  · exact fun h => .here h.1 h.2

/-- Lone dots lead nowhere. What they ask for is asked for by what follows; only at the end they
ask for something more. -/
theorem goes_filter_iff : Goes root links l cs links' l' ↔
    Goes root links l (cs.filter (· ≠ .here)) links' l' ∧
      (cs.getLast? = some .here → Passable root l') := by
  induction cs generalizing links l with
  | nil => simp
  | cons c cs ih =>
    by_cases hc : c = .here
    · subst hc
      rw [goes_here_iff, ih, List.filter_cons_of_neg (by simp)]
      constructor
      · rintro ⟨hl, hgoes, hlast⟩
        refine ⟨hgoes, fun hend => ?_⟩
        cases cs with
        | nil => cases hgoes; exact hl
        | cons d cs => exact hlast hend
      · rintro ⟨hgoes, hlast⟩
        refine ⟨?_, hgoes, fun hend => hlast (by simp [List.getLast?_cons, hend])⟩
        cases hkept : cs.filter (· ≠ .here) with
        | nil =>
          rw [hkept] at hgoes
          cases hgoes
          have hdots : ∀ d ∈ cs, d = .here := by simpa using hkept
          refine hlast ?_
          cases hend : cs.getLast? with
          | none => simp [List.getLast?_cons, hend]
          | some d => simp [List.getLast?_cons, hend, hdots d (List.mem_of_getLast? hend)]
        | cons d ds => exact (hkept ▸ hgoes).passable
    · have hlast : (c :: cs).getLast? = some .here ↔ cs.getLast? = some .here := by
        rw [List.getLast?_cons]
        cases cs.getLast? <;> simp [hc]
      rw [goes_cons_iff, List.filter_cons_of_pos (by simpa using hc), goes_cons_iff, hlast]
      simp only [ih]
      constructor
      · rintro ⟨k, m, hfirst, hthen, hend⟩
        exact ⟨⟨k, m, hfirst, hthen⟩, hend⟩
      · rintro ⟨⟨k, m, hfirst, hthen⟩, hend⟩
        exact ⟨k, m, hfirst, hthen, hend⟩

theorem map_eq_here_iff {c : Component Text} : c.map Name.ofText = .here ↔ c = .here := by
  cases c <;> simp [Component.map]

theorem filter_route (p : Path) :
    (route p).filter (· ≠ .here) =
      (if Path.isAbsolute p then [.root] else []) ++ routeAlong (Path.names p) := by
  rw [route, List.filter_map]
  simp only [Function.comp_def, ne_eq, map_eq_here_iff]
  have h := Path.filter_spelled p
  simp only [ne_eq] at h
  rw [h, List.map_append, routeAlong, List.map_map]
  split <;> rfl

end Dots

section Directories

/-- A way to a directory may end in a slash. -/
theorem Goes.leads (h : Goes root links l cs links' l') (hn : root.at? l' = some n)
    (hdir : n.isDir = true) : Leads root true links l cs (.entry l' n) := by
  induction h with
  | done => exact .arrived hn
  | root hl _ ih => exact .root hl (ih hn)
  | here hl _ ih => exact .here hl (ih hn)
  | up hl _ ih => exact .up hl (ih hn)
  | enter hl hsize hname hlink _ ih => exact .enter hl hsize hname hlink (ih hn)
  | @follow _ _ _ _ _ p _ rest hl hsize hname hrest ih =>
    refine .follow hl hsize hname (fun _ => rfl) ?_
    by_cases hnil : rest = []
    · subst hnil
      rw [onward_nil]
      rw [List.append_nil] at hrest ih
      split
      case isTrue => exact (leads_append_iff (by simp)).mpr ⟨_, _, hrest, .stay hn hdir⟩
      case isFalse => simpa using ih hn
    · rw [onward_of_ne_nil p hnil]
      exact ih hn

theorem getLast?_route_iff {p : Path} :
    (route p).getLast? = some .here ↔ (Path.spelled p).getLast? = some .here := by
  rw [route, List.getLast?_map, Option.map_eq_some_iff]
  simp [map_eq_here_iff]

/-- A path that spells a lone dot at its end stays there. -/
theorem stays_of_getLast? {p : Path} (h : (Path.spelled p).getLast? = some .here) :
    Path.stays p = true := by
  obtain ⟨before, last, hsplit⟩ :=
    (List.eq_nil_or_concat' (p.splitOn '/')).resolve_left (List.splitOn_ne_nil '/' p)
  have hsome : (p.splitOn '/').any (!·.isEmpty) = true := by
    by_contra hnone
    have hempty : (p.splitOn '/').filter (!·.isEmpty) = [] := by simpa using hnone
    rw [Path.spelled, hempty] at h
    split at h <;> simp at h
  rw [Path.stays, hsome, Bool.and_true, hsplit, List.getLast?_concat]
  by_cases hlast : last = []
  · simp [hlast]
  · have hpieces : (p.splitOn '/').filter (!·.isEmpty) = before.filter (!·.isEmpty) ++ [last] := by
      rw [hsplit, List.filter_append]
      simp [hlast]
    rw [Path.spelled, hpieces, List.map_append, ← List.append_assoc, List.map_singleton,
      List.getLast?_concat, Option.some.injEq, Path.ofText_eq_here_iff] at h
    simp [h]

theorem leads_stay_iff :
    Leads root follow links l [.here] (.entry l' n) ↔
      l = l' ∧ root.at? l = some n ∧ n.isDir = true := by
  constructor
  · rintro (_ | _ | ⟨⟨d, hd, hdir, -⟩, ⟨hn⟩⟩ | ⟨hn, hdir⟩)
    · rw [hd] at hn
      cases hn
      exact ⟨rfl, hd, hdir⟩
    · exact ⟨rfl, hn, hdir⟩
  · rintro ⟨rfl, hn, hdir⟩
    exact .stay hn hdir

theorem Leads.goes (h : Leads root true links l cs (.entry l' n))
    (hend : cs.getLast? ≠ some .here) : ∃ k, Goes root links l cs k l' := by
  have htail {c : Component Name} {rest : List (Component Name)}
      (hend : (c :: rest).getLast? ≠ some .here) : rest.getLast? ≠ some .here := by
    intro hlast
    simp [List.getLast?_cons, hlast] at hend
  generalize htarget : Target.entry l' n = target at h
  induction h with
  | arrived hn =>
    cases htarget
    exact ⟨_, .done⟩
  | root hl _ ih =>
    obtain ⟨k, hgoes⟩ := ih (htail hend) htarget
    exact ⟨k, .root hl hgoes⟩
  | here hl _ ih =>
    obtain ⟨k, hgoes⟩ := ih (htail hend) htarget
    exact ⟨k, .here hl hgoes⟩
  | up hl _ ih =>
    obtain ⟨k, hgoes⟩ := ih (htail hend) htarget
    exact ⟨k, .up hl hgoes⟩
  | stay => exact absurd rfl hend
  | vacant => cases htarget
  | link _ _ _ hfollow => cases hfollow
  | enter hl hsize hname hlink _ ih =>
    obtain ⟨k, hgoes⟩ := ih (htail hend) htarget
    exact ⟨k, .enter hl hsize hname hlink hgoes⟩
  | @follow _ _ _ p _ rest _ hl hsize hname _ hrest ih =>
    subst htarget
    suffices h : ∃ k, Goes root _ _ (route p ++ rest) k l' by
      obtain ⟨k, hgoes⟩ := h
      exact ⟨k, .follow hl hsize hname hgoes⟩
    by_cases hnil : rest = []
    · subst hnil
      rw [onward_nil] at hrest ih
      rw [List.append_nil]
      cases hstays : Path.stays p with
      | true =>
        simp only [hstays, if_true] at hrest
        obtain ⟨k, m, hgoes, hstay⟩ := (leads_append_iff (by simp)).mp hrest
        exact ⟨k, (leads_stay_iff.mp hstay).1 ▸ hgoes⟩
      | false =>
        simp only [hstays, Bool.false_eq_true, if_false, List.append_nil] at ih
        exact ih (fun hlast => by simp [stays_of_getLast? (getLast?_route_iff.mp hlast)] at hstays)
          trivial
    · rw [onward_of_ne_nil p hnil] at ih
      refine ih ?_ rfl
      rw [List.getLast?_append_of_ne_nil _ hnil]
      exact htail hend

/-- A path leads to a directory just where what it spells goes there. -/
theorem find_directory_iff {t : FileTree} {p : Path} :
    (t.find true p = .ok (.entry l n) ∧ n.isDir = true) ↔
      Nameable p ∧ (∃ k, Goes t.root linkLimit [] (route p) k l) ∧ t.root.at? l = some n ∧
        n.isDir = true := by
  have hwalked : Place.walked p = route p ++ if Path.stays p then [.here] else [] := by
    simp [Place.walked, ← onward_nil, onward]
  rw [find_eq_ok_iff, hwalked]
  constructor
  · rintro ⟨⟨hname, hleads⟩, hdir⟩
    refine ⟨hname, ?_, hleads.holds, hdir⟩
    split at hleads
    case isTrue =>
      obtain ⟨k, m, hgoes, hstay⟩ := (leads_append_iff (by simp)).mp hleads
      exact ⟨k, (leads_stay_iff.mp hstay).1 ▸ hgoes⟩
    case isFalse hstays =>
      rw [List.append_nil] at hleads
      exact hleads.goes fun hlast => hstays (stays_of_getLast? (getLast?_route_iff.mp hlast))
  · rintro ⟨hname, ⟨k, hgoes⟩, hn, hdir⟩
    refine ⟨⟨hname, ?_⟩, hdir⟩
    split
    case isTrue => exact (leads_append_iff (by simp)).mpr ⟨_, _, hgoes, .stay hn hdir⟩
    case isFalse => simpa using hgoes.leads hn hdir

/-- The way to a directory, without lone dots. -/
theorem goes_route_iff {p : Path} (hp : Path.isAbsolute p = true) :
    Goes root links l (route p) links' l' ↔
      Goes root links l (.root :: routeAlong (Path.names p)) links' l' ∧
        ((Path.spelled p).getLast? = some .here → Passable root l') := by
  rw [goes_filter_iff, filter_route, if_pos hp, getLast?_route_iff]
  rfl

end Directories

end LineShell.FileTree

import LineShell.Proofs.Completion.ReadBack
import LineShell.Proofs.Files.Back

/-! The directory that is searched for completions of a path, and the one that a command takes the
path to name. The completer leaves `..` to the system, which goes back from where links lead; the
commands go back by the text. -/

namespace LineShell

namespace Path

variable {home : Option Path} {d : Text}

theorem getLast?_join {p q : Path} (hp : p ≠ []) (hq : q = [] ∨ q.getLast? = some '/') :
    (join p q).getLast? = some '/' := by
  cases habs : isAbsolute q with
  | true =>
    rw [join_of_isAbsolute habs]
    exact hq.resolve_left (ne_nil_of_isAbsolute habs)
  | false =>
    rw [join_eq_slashed hp habs]
    rcases hq with rfl | hq
    · obtain ⟨base, hbase, -⟩ := exists_slashed p
      rw [List.append_nil, hbase, List.getLast?_concat]
    · rw [List.getLast?_append, hq, Option.some_or]

theorem join_append {p q r : Path} (hp : p ≠ []) (hr : isAbsolute r = false) :
    join p (q ++ r) = join p q ++ r := by
  cases q with
  | nil =>
    rw [List.nil_append, join_eq_slashed hp hr, join_eq_slashed hp rfl, List.append_nil]
  | cons c q =>
    have hsame : isAbsolute (c :: q ++ r) = isAbsolute (c :: q) := rfl
    cases habs : isAbsolute (c :: q) with
    | true => rw [join_of_isAbsolute habs, join_of_isAbsolute (hsame.trans habs)]
    | false =>
      rw [join_eq_slashed hp habs, join_eq_slashed hp (hsame.trans habs), List.append_assoc]

theorem expandTilde_none (t : Text) : expandTilde none t = t := by
  unfold expandTilde
  split <;> simp_all

theorem expandTilde_eq_self {t : Text} (hlone : t ≠ ['~'])
    (hslash : ∀ rest, t ≠ '~' :: '/' :: rest ∧ t ≠ '~' :: '\\' :: rest) :
    expandTilde home t = t := by
  unfold expandTilde
  split
  case h_1 => exact absurd rfl hlone
  case h_2 rest _ => exact absurd rfl (hslash rest).1
  case h_3 rest _ => exact absurd rfl (hslash rest).2
  case h_4 => rfl

/-- A directory part is short for a path at the home directory, or it stands for itself, whatever
comes behind it. -/
theorem expandTilde_append_cases (home : Option Path) (hd : d.getLast? = some '/') :
    (∃ h base, home = some h ∧ (base = [] ∨ base.getLast? = some '/') ∧
      ∀ rest, expandTilde home (d ++ rest) = join h (base ++ rest)) ∨
    ∀ rest, expandTilde home (d ++ rest) = d ++ rest := by
  cases home with
  | none => exact .inr fun rest => expandTilde_none _
  | some h =>
    match d with
    | [c] =>
      obtain rfl : c = '/' := by simpa using hd
      exact .inr fun rest => expandTilde_eq_self (by simp) (by simp)
    | c :: c' :: base =>
      have hbase : base = [] ∨ base.getLast? = some '/' := by
        cases base with
        | nil => exact .inl rfl
        | cons => exact .inr hd
      by_cases hhome : c = '~' ∧ (c' = '/' ∨ c' = '\\')
      · obtain ⟨rfl, rfl | rfl⟩ := hhome <;> exact .inl ⟨h, base, rfl, hbase, fun _ => rfl⟩
      · refine .inr fun rest => expandTilde_eq_self (by simp) fun tail => ?_
        simp only [List.cons_append, ne_eq, List.cons.injEq]
        grind

/-- A directory part ends in a slash whatever it is short for. -/
theorem getLast?_expandTilde (hhome : ∀ p ∈ home, isAbsolute p = true)
    (hd : d.getLast? = some '/') : (expandTilde home d).getLast? = some '/' := by
  rw [← List.append_nil d]
  rcases expandTilde_append_cases home hd with ⟨h, base, rfl, hbase, hexpands⟩ | hself
  · rw [hexpands, List.append_nil]
    exact getLast?_join (ne_nil_of_isAbsolute (hhome h rfl)) hbase
  · rwa [hself, List.append_nil]

theorem expandTilde_append (hhome : ∀ p ∈ home, isAbsolute p = true)
    (hd : d.getLast? = some '/') {rest : Text} (hrest : isAbsolute rest = false) :
    expandTilde home (d ++ rest) = expandTilde home d ++ rest := by
  conv => rhs; rw [← List.append_nil d]
  rcases expandTilde_append_cases home hd with ⟨h, base, rfl, -, hexpands⟩ | hself
  · rw [hexpands, hexpands, List.append_nil, join_append (ne_nil_of_isAbsolute (hhome h rfl)) hrest]
  · rw [hself, hself, List.append_nil]

/-- A name behind a directory part is joined to what the part names, with a slash behind it or
none. -/
theorem resolve_append {cwd : Path} (hhome : ∀ p ∈ home, isAbsolute p = true)
    (hd : d = [] ∨ d.getLast? = some '/') {name : Text} (hname : IsName name) {s : Text}
    (hs : names (name ++ s) = [name]) (hself : d = [] → expandTilde home (name ++ s) = name ++ s) :
    resolve home cwd (d ++ (name ++ s)) = join (resolve home cwd d) name := by
  have hrel : isAbsolute (name ++ s) = false := by
    obtain ⟨c, rest, rfl⟩ := List.exists_cons_of_ne_nil hname.1
    exact hname.isAbsolute_eq_false
  have hne : name ++ s ≠ [] := fun h => hname.1 (List.append_eq_nil_iff.mp h).1
  rw [resolve_eq_foldl (by simp [hname.1])]
  rcases hd with rfl | hd
  · rw [List.nil_append, hself rfl, hs, start, if_neg (by simp [hrel])]
    simp [hname.ofText_eq, step, resolve]
  · have hend := getLast?_expandTilde hhome hd
    have hd' : d ≠ [] := by
      rintro rfl
      cases hd
    rw [expandTilde_append hhome hd hrel, resolve_eq_foldl hd']
    generalize expandTilde home d = base at hend ⊢
    obtain ⟨base, rfl⟩ := List.getLast?_eq_some_iff.mp hend
    have hstart : start cwd (base ++ ['/'] ++ (name ++ s)) = start cwd (base ++ ['/']) := by
      cases base <;> rfl
    rw [hstart, List.append_assoc, List.singleton_append, names_append_slash, hs,
      names_append_slash, names_nil, List.append_nil, List.map_append, List.foldl_append]
    simp [hname.ofText_eq, step]

end Path

namespace Completion

variable {t : FileTree} {home : Option Path} {cwd : Path} {d word : Text}

/-- A directory part: all of a path up to its last slash. -/
def IsDirPart (d : Text) : Prop :=
  d = [] ∨ d.getLast? = some '/'

/-- A word behind a directory part, with no sign in it at which the completer would part it. -/
def IsRest (word : Text) : Prop :=
  '/' ∉ word ∧ '\\' ∉ word

instance (word : Text) : Decidable (IsRest word) := by
  unfold IsRest; infer_instance

theorem splitPath_append (hd : IsDirPart d) (hword : IsRest word) :
    splitPath (d ++ word) = (d, word) := by
  have hstop : d.reverse.takeWhile (fun c => !(decide (c = '/') || decide (c = '\\'))) = [] := by
    rcases hd with rfl | hd
    · rfl
    · obtain ⟨base, rfl⟩ := List.getLast?_eq_some_iff.mp hd
      rw [List.reverse_append]
      rfl
  have hrest : ((d ++ word).reverse.takeWhile
      (fun c => !(decide (c = '/') || decide (c = '\\')))).reverse = word := by
    rw [List.reverse_append, List.takeWhile_append_of_pos, hstop, List.append_nil,
      List.reverse_reverse]
    intro c hc
    have hslash : c ≠ '/' := fun h => hword.1 (h ▸ List.mem_reverse.mp hc)
    have hback : c ≠ '\\' := fun h => hword.2 (h ▸ List.mem_reverse.mp hc)
    simp [hslash, hback]
  simp only [splitPath]
  rw [hrest]
  simp

theorem searchedDir_eq (hhome : ∀ p ∈ home, Path.isAbsolute p = true) (hd : d.getLast? = some '/')
    (htilde : home = none ∨ ¬"~\\".toList <+: d) :
    searchedDir home cwd d = Path.join cwd (Path.expandTilde home d) := by
  match d, home with
  | c :: rest, none =>
    rw [Path.expandTilde_none]
    simp [searchedDir]
  | [c], some h =>
    obtain rfl : c = '/' := by simpa using hd
    rfl
  | c :: c' :: rest, some h =>
    have hback : ¬(c = '~' ∧ c' = '\\') := by
      rintro ⟨rfl, rfl⟩
      exact htilde.resolve_left (by simp) ⟨rest, rfl⟩
    by_cases hslash : c = '~' ∧ c' = '/'
    · obtain ⟨rfl, rfl⟩ := hslash
      have habs : Path.isAbsolute (Path.join h rest) = true :=
        Path.isAbsolute_join_of_isAbsolute (hhome h rfl)
      exact (Path.join_of_isAbsolute habs).symm
    · rw [Path.expandTilde_eq_self (by simp) fun tail => by
        simp only [ne_eq, List.cons.injEq]
        grind]
      have hprefix : List.isPrefixOf? ['~', '/'] (c :: c' :: rest) = none := by
        rcases not_and_or.mp hslash with hc | hc'
        · simp [List.isPrefixOf?, Ne.symm hc]
        · simp [List.isPrefixOf?, Ne.symm hc']
      simp [searchedDir, hprefix]

/-- The completer and the commands agree on a directory part in front of a word. -/
structure Agrees (t : FileTree) (home : Option Path) (cwd : Path) (d word : Text) : Prop where
  /-- What is searched is the directory that the part names, and it is searched wherever the way to
  it is there. -/
  same : ∀ l n, (t.find true (searchedDir home cwd d) = .ok (.entry l n) ∧ n.isDir = true) ↔
    (t.find true (Path.resolve home cwd d) = .ok (.entry l n) ∧ n.isDir = true) ∧
      t.Passes (searchedDir home cwd d) (Path.left home cwd d) n
  /-- Its entries that go on like the word are offered, and nothing else. -/
  offers : ∀ c, c ∈ completePath t home cwd (d ++ word) ↔ ∃ l dir name n,
    (t.find true (Path.resolve home cwd d) = .ok (.entry l dir) ∧ dir.isDir = true) ∧
      t.Passes (searchedDir home cwd d) (Path.left home cwd d) dir ∧ dir.grants .read = true ∧
      (name, n) ∈ dir.entries ∧ offered word name.shown = true ∧ c = ofEntry d name n
  /-- What is offered is there under the path that the completed word names, where the directory
  lets its entries be looked up and the system takes the path. -/
  found : ∀ l dir name n, t.find true (Path.resolve home cwd d) = .ok (.entry l dir) →
    (Name.ofText name, n) ∈ dir.entries → dir.grants .search = true → Path.IsName name →
    (Name.ofText name).size ≤ FileTree.nameLimit →
    ∀ path, path = (ofEntry d (Name.ofText name) n).replacement →
    (d = [] → Path.expandTilde home path = path) →
    FileTree.Nameable (Path.resolve home cwd path) →
    ∃ m, dir.entry? (Name.ofText name) = some m ∧
      t.find false (Path.resolve home cwd path) = .ok (.entry (Name.ofText name :: l) m)

theorem searched_iff (hcwd : cwd.IsNormal) (hdots : cwd.Undotted)
    (hhome : ∀ p ∈ home, Path.isAbsolute p = true) (hd : IsDirPart d)
    (htilde : home = none ∨ ¬"~\\".toList <+: d)
    (hlink : ∀ p ∈ Path.left home cwd d, t.isLink p = false) (l : Location) (n : Node) :
    (t.find true (searchedDir home cwd d) = .ok (.entry l n) ∧ n.isDir = true) ↔
      (t.find true (Path.resolve home cwd d) = .ok (.entry l n) ∧ n.isDir = true) ∧
        t.Passes (searchedDir home cwd d) (Path.left home cwd d) n := by
  rcases hd with rfl | hd
  · have hleft : Path.left home cwd [] = [] := by cases home <;> rfl
    refine ⟨fun h => ⟨h, (FileTree.find_directory_iff.mp h).1, ?_, fun hdot => ?_⟩, And.left⟩
    · simp [hleft]
    · exact absurd hdot (Path.getLast?_spelled_of_undotted hdots)
  · rw [searchedDir_eq hhome hd htilde, Path.resolve_eq_foldl (by rintro rfl; cases hd)]
    have hend := Path.getLast?_expandTilde hhome hd
    exact FileTree.find_fold_iff (Path.isAbsolute_join_of_isAbsolute hcwd.absolute)
      (Path.names_join_start hcwd.absolute) (Path.farthest_start_sublist hcwd.absolute hend)
      (Path.isClosed_isNormal.start hcwd _) (Path.isClosed_undotted.start hdots _)
      (Path.between_names _) hlink

theorem agrees_of_no_link_left (hcwd : cwd.IsNormal) (hdots : cwd.Undotted)
    (hhome : ∀ p ∈ home, Path.isAbsolute p = true) (hd : IsDirPart d) (hword : IsRest word)
    (htilde : home = none ∨ ¬"~\\".toList <+: d)
    (hlink : ∀ p ∈ Path.left home cwd d, t.isLink p = false) : Agrees t home cwd d word where
  same := searched_iff hcwd hdots hhome hd htilde hlink
  offers c := by
    have hsame := searched_iff hcwd hdots hhome hd htilde hlink
    rw [mem_completePath_iff, splitPath_append hd hword]
    constructor
    · rintro ⟨entries, name, n, hlist, hentry, hoffered, rfl⟩
      obtain ⟨l, dir, hfind, hdir, hread, rfl⟩ := (FileTree.list_eq_ok_iff _ _ _).mp hlist
      obtain ⟨hnamed, hpasses⟩ := (hsame l dir).mp ⟨hfind, hdir⟩
      exact ⟨l, dir, name, n, hnamed, hpasses, hread, hentry, hoffered, rfl⟩
    · rintro ⟨l, dir, name, n, hnamed, hpasses, hread, hentry, hoffered, rfl⟩
      obtain ⟨hfind, hdir⟩ := (hsame l dir).mpr ⟨hnamed, hpasses⟩
      exact ⟨dir.entries, name, n,
        (FileTree.list_eq_ok_iff _ _ _).mpr ⟨l, dir, hfind, hdir, hread, rfl⟩, hentry, hoffered,
        rfl⟩
  found l dir name n hfind hmem hsearch hname hsize path hpath hself hnameable := by
    obtain ⟨s, hs, hreplaced⟩ : ∃ s, Path.names (name ++ s) = [name] ∧ path = d ++ (name ++ s) := by
      rw [replacement_ofEntry, entryPath, Name.shown_ofText, List.append_assoc] at hpath
      refine ⟨_, ?_, hpath⟩
      split
      · rw [Path.names_append_slash, hname.names_eq, Path.names_nil, List.append_nil]
      · rw [List.append_nil, hname.names_eq]
    have hresolve : Path.resolve home cwd path = Path.join (Path.resolve home cwd d) name := by
      subst hreplaced
      refine Path.resolve_append hhome hd hname hs ?_
      rintro rfl
      exact hself rfl
    obtain ⟨m, hm⟩ : ∃ m, dir.entry? (Name.ofText name) = some m :=
      Option.isSome_iff_exists.mp (List.lookup_isSome_iff.mpr ⟨_, hmem, beq_self_eq_true _⟩)
    rw [hresolve] at hnameable ⊢
    exact ⟨m, hm, FileTree.find_join (Path.isClosed_isNormal.resolve hcwd home d)
      (Path.isClosed_undotted.resolve hdots home d) hname hsize hnameable hfind hsearch hm⟩

/-- A directory `o` with a directory `s` and a file `x2` in it. -/
def besideDeep : Node :=
  .dir 0o755 0 [(Name.ofText ['s'], .dir 0o755 0 []), (Name.ofText ['x', '2'], .file 0)]

/-- A tree with `o`, and a link `l` to `o/s`. -/
def linkedDeep : FileTree :=
  { root := .dir 0o755 0
      [(Name.ofText ['l'], .link "o/s".toList 0), (Name.ofText ['o'], besideDeep)],
    files := [{ bytes := [], mode := 0o644, changed := 0 }] }

private theorem leads_deep {follow : Bool} {links : Nat} {rest : List (Component Name)}
    {target : Target}
    (h : FileTree.Leads linkedDeep.root follow links [Name.ofText ['s'], Name.ofText ['o']] rest
      target) :
    FileTree.Leads linkedDeep.root follow links []
      (.name (Name.ofText ['o']) :: .name (Name.ofText ['s']) :: rest) target := by
  have hroot : FileTree.Passable linkedDeep.root [] := ⟨_, rfl, rfl, by decide⟩
  have hbeside : FileTree.Passable linkedDeep.root [Name.ofText ['o']] := ⟨_, rfl, rfl, by decide⟩
  exact .enter hroot (by decide) rfl rfl (.enter hbeside (by decide) rfl rfl h)

/-- `..` behind a directory and no link: what is offered is where the commands look for it. -/
theorem agrees_behindDirectory :
    Path.IsNormal ['/'] ∧ Path.Undotted ['/'] ∧ IsDirPart "o/s/../".toList ∧ IsRest ['x'] ∧
      (∀ p ∈ Path.left none ['/'] "o/s/../".toList, linkedDeep.isLink p = false) ∧
      Agrees linkedDeep none ['/'] "o/s/../".toList ['x'] ∧
      ofEntry "o/s/../".toList (Name.ofText ['x', '2']) (.file 0) ∈
        completePath linkedDeep none ['/'] "o/s/../x".toList := by
  have hnormal : Path.IsNormal ['/'] := Path.isClosed_isNormal.root
  have hleft : Path.left none ['/'] "o/s/../".toList = ["/o/s".toList] := by decide
  have hroot : FileTree.Passable linkedDeep.root [] := ⟨_, rfl, rfl, by decide⟩
  have hdeep : linkedDeep.find false ("/o/s".toList : Path) =
      .ok (.entry [Name.ofText ['s'], Name.ofText ['o']] (.dir 0o755 0 [])) := by
    refine (FileTree.find_eq_ok_iff _ _ _ _).mpr ⟨by decide, ?_⟩
    have hwalked : Place.walked ("/o/s".toList : Path) =
      [.root, .name (Name.ofText ['o']), .name (Name.ofText ['s'])] := by decide
    rw [hwalked]
    exact .root hroot (leads_deep (.arrived rfl))
  have hnamed : linkedDeep.find true ("/o".toList : Path) =
      .ok (.entry [Name.ofText ['o']] besideDeep) := by
    refine (FileTree.find_eq_ok_iff _ _ _ _).mpr ⟨by decide, ?_⟩
    have hwalked : Place.walked ("/o".toList : Path) =
      [.root, .name (Name.ofText ['o'])] := by decide
    rw [hwalked]
    exact .root hroot (.enter hroot (by decide) rfl rfl (.arrived rfl))
  have hlink : ∀ p ∈ Path.left none ['/'] "o/s/../".toList, linkedDeep.isLink p = false := by
    rw [hleft, List.forall_mem_singleton, FileTree.isLink, FileTree.node, hdeep]
    rfl
  have hagrees : Agrees linkedDeep none ['/'] "o/s/../".toList ['x'] :=
    agrees_of_no_link_left hnormal (by decide) (by simp) (.inr (by decide)) (by decide) (.inl rfl)
      hlink
  refine ⟨hnormal, by decide, .inr (by decide), by decide, hlink, hagrees, ?_⟩
  refine (hagrees.offers _).mpr ⟨[Name.ofText ['o']], besideDeep, _, _, ⟨hnamed, rfl⟩, ?_,
    by decide, List.mem_cons_of_mem _ List.mem_cons_self, by decide, rfl⟩
  refine ⟨by decide, ?_, by decide⟩
  rw [hleft, List.forall_mem_singleton]
  exact ⟨_, (FileTree.node_eq_ok_iff _ _ _ _).mpr ⟨_, hdeep⟩, rfl, by decide⟩

/-- What is offered behind a link and `..` lies beside what the link leads to, and not beside the
link, where the commands look for it. -/
theorem completePath_behindLink :
    ofEntry "l/../".toList (Name.ofText ['x', '2']) (.file 0) ∈
        completePath linkedDeep none ['/'] "l/../x".toList ∧
      (ofEntry "l/../".toList (Name.ofText ['x', '2']) (.file 0)).replacement =
        "l/../x2".toList ∧
      linkedDeep.isThere (Path.resolve none ['/'] "l/../x2".toList) = false := by
  have hroot : FileTree.Passable linkedDeep.root [] := ⟨_, rfl, rfl, by decide⟩
  have hsearched : linkedDeep.find true ("/l/../".toList : Path) =
      .ok (.entry [Name.ofText ['o']] besideDeep) := by
    refine (FileTree.find_eq_ok_iff _ _ _ _).mpr ⟨by decide, ?_⟩
    have hwalked : Place.walked ("/l/../".toList : Path) =
      [.root, .name (Name.ofText ['l']), .up, .here] := by decide
    rw [hwalked]
    refine .root hroot (.follow hroot (by decide) rfl (by simp) (leads_deep ?_))
    exact .up ⟨_, rfl, rfl, by decide⟩ (.stay rfl rfl)
  have hnamed : linkedDeep.find true ("/x2".toList : Path) =
      .ok (.vacant [] (Name.ofText ['x', '2'])) := by
    refine (FileTree.find_eq_ok_iff _ _ _ _).mpr ⟨by decide, ?_⟩
    have hwalked : Place.walked ("/x2".toList : Path) =
      [.root, .name (Name.ofText ['x', '2'])] := by decide
    rw [hwalked]
    exact .root hroot (.vacant hroot (by decide) rfl)
  refine ⟨?_, by decide, ?_⟩
  · have hsplit : splitPath "l/../x".toList = ("l/../".toList, ['x']) := by decide
    have hdir : searchedDir none ['/'] "l/../".toList = "/l/../".toList := by decide
    rw [mem_completePath_iff, hsplit, hdir]
    exact ⟨_, _, _, (FileTree.list_eq_ok_iff _ _ _).mpr ⟨_, _, hsearched, rfl, rfl, rfl⟩,
      List.mem_cons_of_mem _ List.mem_cons_self, by decide, rfl⟩
  · have hresolve : Path.resolve none ['/'] "l/../x2".toList = "/x2".toList := by decide
    rw [hresolve, FileTree.isThere, FileTree.node, hnamed]
    rfl

end Completion

end LineShell

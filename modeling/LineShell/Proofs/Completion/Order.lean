import LineShell.Proofs.Commands.Search
import LineShell.Proofs.Completion.ReadBack
import LineShell.Proofs.Files.Removal

/-! The candidates of a path and the order in which the system lists a directory. Candidates are
sorted by the small letters of what is shown, so that those which only differ in case are left as
the listing has them. -/

namespace LineShell

namespace Node.NamedByBytes

variable {root n : Node} {l : Location} {f : Node → Node}

theorem below (h : root.NamedByBytes) (hn : root.at? l = some n) : n.NamedByBytes := by
  intro x m hm
  apply h (x ++ l)
  rw [at?_append, hn]
  exact hm

theorem bytes_eq (n : Node) :
    (n.entries.map fun e => e.1.bytes) = (n.entries.map Prod.fst).map Name.bytes := by
  rw [List.map_map]
  rfl

theorem changeAt (h : root.NamedByBytes)
    (hf : ∀ n, root.at? l = some n → (f n).NamedByBytes) : (root.changeAt f l).NamedByBytes := by
  simp only [NamedByBytes, bytes_eq] at h hf ⊢
  exact forall_names_changeAt (P := fun names => (names.map Name.bytes).Nodup) h hf

end Node.NamedByBytes

namespace FileTree

/-- A directory of a tree may be listed in any order, while nothing else of the tree is changed. -/
theorem Relisted.relist {t : FileTree} (hnamed : t.root.NamedByBytes) {l : Location} {mode : Nat}
    {changed : Time} {es es' : List (Name × Node)} (hd : t.root.at? l = some (.dir mode changed es))
    (hperm : es.Perm es') :
    t.Relisted { t with root := t.root.changeAt (fun _ => .dir mode changed es') l } := by
  have hdir := Relisted.of_perm hperm (hnamed.below hd) t.files
  refine ⟨fun k => ?_, hnamed, hnamed.changeAt fun _ _ => hdir.named'⟩
  by_cases hk : l <:+ k
  · obtain ⟨x, rfl⟩ := hk
    rw [Node.AgreeAt, Node.at?_append, Node.at?_changeAt_below, hd]
    exact hdir.same x
  · exact Node.at?_changeAt_agree _ hk t.root

/-- What is listed can be listed in any other order. -/
theorem exists_relisted {t : FileTree} (hnamed : t.root.NamedByBytes) {p : Place}
    {entries entries' : List (Name × Node)} (hlist : t.list p = .ok entries)
    (hperm : entries.Perm entries') :
    ∃ t', t.Relisted t' ∧ t'.list p = .ok entries' := by
  obtain ⟨l, d, hfind, hdir, hread, rfl⟩ := (list_eq_ok_iff t p entries).mp hlist
  have hd := find_holds hfind
  cases d with
  | dir mode changed es =>
    have hrelisted := Relisted.relist hnamed hd hperm
    obtain ⟨d', -, hfind'⟩ := find_grown hrelisted.within hfind
    have hd' := find_holds hfind'
    change (t.root.changeAt _ l).at? l = some d' at hd'
    rw [Node.at?_changeAt_self, hd] at hd'
    obtain rfl := Option.some.inj hd'
    exact ⟨_, hrelisted, (list_eq_ok_iff _ p _).mpr ⟨l, _, hfind', rfl, hread, rfl⟩⟩
  | _ => cases hdir

/-- Entries that are listed in another order are the same ones, as far as their names and whether
they are directories. -/
theorem Relisted.exists_perm {t t' : FileTree} (h : t.Relisted t') {p : Place}
    {entries : List (Name × Node)} (hlist : t.list p = .ok entries) :
    ∃ entries', t'.list p = .ok entries' ∧
      (entries.map Commands.walkedBy).Perm (entries'.map Commands.walkedBy) := by
  obtain ⟨entries', hlist', hsame⟩ := h.exists_list hlist
  have hsorted (es : List (Name × Node)) :
      ((Commands.inOrder es).map Commands.walkedBy).Perm (es.map Commands.walkedBy) :=
    (List.mergeSort_perm es _).map Commands.walkedBy
  refine ⟨entries', hlist', (hsorted entries).symm.trans ?_⟩
  rw [hsame]
  exact hsorted entries'

end FileTree

namespace Completion

namespace Candidate

/-- What candidates are sorted by. -/
def key (c : Candidate) : Text :=
  Text.lower c.display

def le (a b : Candidate) : Bool :=
  Text.le a.key b.key

theorem le_trans (a b c : Candidate) : le a b = true → le b c = true → le a c = true :=
  Text.leBy_trans

theorem le_total (a b : Candidate) : (le a b || le b a) = true := by
  rw [Bool.or_eq_true]
  exact Text.leBy_total

theorem key_eq_of_le {a b : Candidate} (hab : le a b = true) (hba : le b a = true) :
    a.key = b.key :=
  Text.leBy_antisymm (fun _ _ => Char.toNat_inj.mp) hab hba

theorem le_of_key_eq {a b : Candidate} (h : a.key = b.key) : le a b = true := by
  have htotal := le_total a b
  rw [le, le, h, Bool.or_self] at htotal
  rw [le, h]
  exact htotal

/-- Candidates that the sort does not tell apart keep the order that they came in. -/
theorem filter_mergeSort (k : Text) (cs : List Candidate) :
    (cs.mergeSort le).filter (fun c => decide (c.key = k)) =
      cs.filter fun c => decide (c.key = k) := by
  have hpairwise : (cs.filter fun c => decide (c.key = k)).Pairwise fun a b => le a b = true := by
    apply List.pairwise_filter.mpr
    apply List.pairwise_of_forall
    intro a b ha hb
    exact le_of_key_eq ((of_decide_eq_true ha).trans (of_decide_eq_true hb).symm)
  have hsub := (List.sublist_mergeSort le_trans le_total hpairwise List.filter_sublist).filter
    fun c => decide (c.key = k)
  rw [List.filter_filter] at hsub
  simp only [Bool.and_self] at hsub
  have hlength := ((List.mergeSort_perm cs le).filter fun c => decide (c.key = k)).length_eq
  exact (hsub.eq_of_length hlength.symm).symm

end Candidate

/-- The last part of a word, which the names of entries begin with. -/
def typedName (word : Text) : Text :=
  (splitPath (typedPath word)).2

/-- The candidates of entries, in the order of the entries. -/
def found (p : Text) (entries : List (Name × Node)) : List Candidate :=
  (entries.filter fun e => offered (splitPath p).2 e.1.shown).map fun e =>
    ofEntry (splitPath p).1 e.1 e.2

/-- A candidate as it is put behind a word: between quotes if need be, unless a quote is open. -/
def placed (word : Text) (c : Candidate) : Candidate :=
  if (openQuote? word).isSome then c else c.quoted

theorem display_placed (word : Text) (c : Candidate) : (placed word c).display = c.display := by
  unfold placed Candidate.quoted
  split_ifs <;> rfl

section Found

variable {t t' : FileTree} {home : Option Path} {cwd : Path} {names : List Text} {p line : Text}
  {entries entries' : List (Name × Node)}

theorem completePath_of_list (h : t.list (searchedDir home cwd (splitPath p).1) = .ok entries) :
    completePath t home cwd p = (found p entries).mergeSort Candidate.le := by
  simp only [completePath, h]
  rfl

theorem completePath_of_no_list {e : IoError}
    (h : t.list (searchedDir home cwd (splitPath p).1) = .error e) :
    completePath t home cwd p = [] := by
  simp only [completePath, h]

theorem completePath_perm
    (h : t.list (searchedDir home cwd (splitPath p).1) = .ok entries) :
    (completePath t home cwd p).Perm (found p entries) := by
  rw [completePath_of_list h]
  exact List.mergeSort_perm _ _

/-- Of an entry its name counts, and whether it is a directory. -/
theorem found_perm
    (h : (entries.map Commands.walkedBy).Perm (entries'.map Commands.walkedBy)) :
    (found p entries).Perm (found p entries') := by
  have hkinds (es : List (Name × Node)) :
      found p es = ((es.map Commands.walkedBy).filter fun k =>
        offered (splitPath p).2 k.1.shown).map fun k =>
          let display := if k.2 then k.1.shown ++ ['/'] else k.1.shown
          { display, replacement := (splitPath p).1 ++ display } := by
    rw [List.filter_map, List.map_map]
    rfl
  rw [hkinds, hkinds]
  exact (h.filter _).map _

/-- In whatever order a directory is listed, the candidates are the same ones. -/
theorem completePath_perm_of_relisted (h : t.Relisted t') :
    (completePath t' home cwd p).Perm (completePath t home cwd p) := by
  cases hlist : t.list (searchedDir home cwd (splitPath p).1) with
  | ok entries =>
    obtain ⟨entries', hlist', hperm⟩ := h.exists_perm hlist
    exact (completePath_perm hlist').trans ((found_perm hperm).symm.trans
      (completePath_perm hlist).symm)
  | error e =>
    cases hlist' : t'.list (searchedDir home cwd (splitPath p).1) with
    | ok entries' =>
      obtain ⟨entries, hentries, -⟩ := h.symm.exists_perm hlist'
      rw [hlist] at hentries
      cases hentries
    | error e' => rw [completePath_of_no_list hlist, completePath_of_no_list hlist']

theorem replacement_of_mem {c : Candidate} (h : c ∈ completePath t home cwd p) :
    c.replacement = (splitPath p).1 ++ c.display := by
  obtain ⟨entries, name, n, -, -, -, rfl⟩ := mem_completePath_iff.mp h
  rfl

/-- Where candidates with one key are shown as the same, their order does not come from the
listing. -/
theorem completePath_eq_of_relisted (h : t.Relisted t')
    (hkeys : ∀ c ∈ completePath t home cwd p, ∀ d ∈ completePath t home cwd p,
      c.key = d.key → c.display = d.display) :
    completePath t' home cwd p = completePath t home cwd p := by
  have hperm : (completePath t' home cwd p).Perm (completePath t home cwd p) :=
    completePath_perm_of_relisted h
  have hsorted (s : FileTree) :
      (completePath s home cwd p).Pairwise fun a b => Candidate.le a b = true := by
    cases hlist : s.list (searchedDir home cwd (splitPath p).1) with
    | ok entries =>
      rw [completePath_of_list hlist]
      exact List.pairwise_mergeSort Candidate.le_trans Candidate.le_total _
    | error e =>
      rw [completePath_of_no_list hlist]
      exact .nil
  refine hperm.eq_of_pairwise (fun c d hc hd hcd hdc => ?_) (hsorted t') (hsorted t)
  have hc := hperm.mem_iff.mp hc
  have hdisplay := hkeys c hc d hd (Candidate.key_eq_of_le hcd hdc)
  have hreplacement := replacement_of_mem hc
  rw [hdisplay, ← replacement_of_mem hd] at hreplacement
  cases c
  cases d
  congr

/-- An entry that is listed first gives the first of the candidates with its key. -/
theorem head?_completePath {name : Name} {n : Node}
    (hlist : t.list (searchedDir home cwd (splitPath p).1) = .ok ((name, n) :: entries))
    (hoffered : offered (splitPath p).2 name.shown = true) :
    ((completePath t home cwd p).filter fun d =>
        decide (d.key = (ofEntry (splitPath p).1 name n).key)).head? =
      some (ofEntry (splitPath p).1 name n) := by
  have hfound : found p ((name, n) :: entries) =
      ofEntry (splitPath p).1 name n :: found p entries := by
    rw [found, List.filter_cons, if_pos hoffered]
    rfl
  rw [completePath_of_list hlist, Candidate.filter_mergeSort, hfound,
    List.filter_cons, if_pos (decide_eq_true rfl), List.head?_cons]

/-- Some order of the listing puts a candidate in front of all others with its key. -/
theorem exists_relisted_head? (hnamed : t.root.NamedByBytes) {c : Candidate}
    (hc : c ∈ completePath t home cwd p) :
    ∃ t', t.Relisted t' ∧
      ((completePath t' home cwd p).filter fun d => decide (d.key = c.key)).head? = some c := by
  obtain ⟨entries, name, n, hlist, hentry, hoffered, rfl⟩ := mem_completePath_iff.mp hc
  obtain ⟨before, after, rfl⟩ := List.append_of_mem hentry
  obtain ⟨t', hrelisted, hlist'⟩ :=
    FileTree.exists_relisted hnamed hlist List.perm_middle
  exact ⟨t', hrelisted, head?_completePath hlist' hoffered⟩

end Found

theorem complete_placed {line : Text} (t : FileTree) (home : Option Path) (cwd : Path)
    (names : List Text) (hlater : (currentWord line).isFirst = false) :
    complete t home cwd names line =
      ((currentWord line).before ++ (openQuote? (currentWord line).word).toList,
        (completePath t home cwd (typedPath (currentWord line).word)).map
          (placed (currentWord line).word)) :=
  complete_later hlater

/-- The candidates of a path, each entry that is offered once, are the same ones in whatever order
the system lists the directory. They come in the same order just if no two that are shown as
different are the same in small letters. -/
theorem complete_relisted_iff {t : FileTree} (hnamed : t.root.NamedByBytes) {line : Text}
    (hlater : (currentWord line).isFirst = false) (home : Option Path) (cwd : Path)
    (names : List Text) :
    (∀ entries, t.list (searchedDir home cwd (typedDir (currentWord line).word)) = .ok entries →
      (complete t home cwd names line).2.Perm
        ((entries.filter fun e => offered (typedName (currentWord line).word) e.1.shown).map
          fun e => offer (currentWord line).word e.1 e.2)) ∧
    (∀ t', t.Relisted t' →
      (complete t' home cwd names line).1 = (complete t home cwd names line).1 ∧
      (complete t' home cwd names line).2.Perm (complete t home cwd names line).2) ∧
    ((∀ t', t.Relisted t' →
        complete t' home cwd names line = complete t home cwd names line) ↔
      ∀ c ∈ (complete t home cwd names line).2, ∀ d ∈ (complete t home cwd names line).2,
        Text.lower c.display = Text.lower d.display → c.display = d.display) := by
  simp only [complete_placed _ home cwd names hlater]
  refine ⟨fun entries hlist => ?_, fun t' h => ⟨trivial, ?_⟩, fun hsame c hc d hd hkey => ?_,
    fun hkeys t' h => ?_⟩
  · have hperm := (completePath_perm hlist).map (placed (currentWord line).word)
    rwa [found, List.map_map] at hperm
  · exact (completePath_perm_of_relisted h).map _
  · obtain ⟨c, hmemc, rfl⟩ := List.mem_map.mp hc
    obtain ⟨d, hmemd, rfl⟩ := List.mem_map.mp hd
    rw [display_placed, display_placed] at hkey ⊢
    -- listed first, either of the two would be the first of those with their key
    have hfirst (c : Candidate)
        (hc : c ∈ completePath t home cwd (typedPath (currentWord line).word)) :
        (((completePath t home cwd (typedPath (currentWord line).word)).map
          Candidate.display).filter fun x => decide (Text.lower x = c.key)).head? =
            some c.display := by
      obtain ⟨t', hrelisted, hhead⟩ := exists_relisted_head? hnamed hc
      have hdisplays := congrArg (List.map Candidate.display) (Prod.mk.inj (hsame t' hrelisted)).2
      simp only [List.map_map, Function.comp_def, display_placed] at hdisplays
      rw [← hdisplays, List.filter_map, List.head?_map]
      exact congrArg (Option.map Candidate.display) hhead
    have hkey : c.key = d.key := hkey
    have hhead := hfirst d hmemd
    rw [← hkey, hfirst c hmemc] at hhead
    exact Option.some.inj hhead
  · refine congrArg _ (congrArg _ (completePath_eq_of_relisted h fun c hc d hd hkey => ?_))
    have hdisplay := hkeys _ (List.mem_map_of_mem hc) _ (List.mem_map_of_mem hd)
    rw [display_placed, display_placed] at hdisplay
    exact hdisplay hkey

/-- A tree with empty files in its root, listed in this order. -/
def flat (names : List Text) : FileTree :=
  { root := .dir 0o755 0 (names.map fun name => (Name.ofText name, .file 0)),
    files := [{ bytes := [], mode := 0o644, changed := 0 }] }

theorem flat_list (names : List Text) :
    (flat names).list (['/'] : Path) =
      .ok (names.map fun name => (Name.ofText name, .file 0)) := by
  refine (FileTree.list_eq_ok_iff _ _ _).mpr ⟨[], (flat names).root, ?_, rfl, rfl, rfl⟩
  exact (FileTree.find_eq_ok_iff _ _ _ _).mpr
    ⟨by decide, .root ⟨(flat names).root, rfl, rfl, rfl⟩ (.arrived rfl)⟩

theorem flat_namedByBytes {names : List Text}
    (h : (names.map fun name => (Name.ofText name).bytes).Nodup) :
    (flat names).root.NamedByBytes := by
  refine .dir ?_ fun e he => ?_
  · rwa [List.map_map]
  · obtain ⟨name, -, rfl⟩ := List.mem_map.mp he
    exact .of_leaf rfl

/-- Two names that differ in more than case come in one order. -/
theorem complete_relisted_twoNames :
    (flat [['b'], ['A']]).root.NamedByBytes ∧ (currentWord "cat ".toList).isFirst = false ∧
      ∀ t', (flat [['b'], ['A']]).Relisted t' →
        complete t' none ['/'] [] "cat ".toList =
          complete (flat [['b'], ['A']]) none ['/'] [] "cat ".toList := by
  have hnamed : (flat [['b'], ['A']]).root.NamedByBytes := flat_namedByBytes (by decide)
  have hlater : (currentWord "cat ".toList).isFirst = false := by decide
  have hdisplays : ∀ c ∈ [offer [] (Name.ofText ['b']) (.file 0),
      offer [] (Name.ofText ['A']) (.file 0)], ∀ d ∈ [offer [] (Name.ofText ['b']) (.file 0),
      offer [] (Name.ofText ['A']) (.file 0)],
        Text.lower c.display = Text.lower d.display → c.display = d.display := by
    decide
  obtain ⟨honce, -, hsame⟩ := complete_relisted_iff hnamed hlater none ['/'] []
  have hperm := honce _ (flat_list [['b'], ['A']])
  refine ⟨hnamed, hlater, hsame.mpr fun c hc d hd hkey => ?_⟩
  exact hdisplays c (hperm.mem_iff.mp hc) d (hperm.mem_iff.mp hd) hkey

private theorem flat_complete {names : List Text} {candidates : List Candidate}
    (hfound : found [] (names.map fun name => (Name.ofText name, .file 0)) = candidates)
    (hsorted : candidates.Pairwise fun a b => Candidate.le a b = true) :
    complete (flat names) none ['/'] [] "cat ".toList =
      ("cat ".toList, candidates.map (placed [])) := by
  rw [complete_placed _ _ _ _ (by decide)]
  have hlist : completePath (flat names) none ['/'] [] = candidates := by
    rw [completePath_of_list (flat_list names), hfound, List.mergeSort_of_pairwise hsorted]
  exact Prod.ext rfl (congrArg (List.map (placed [])) hlist)

/-- Names that differ in case alone are offered as they are listed. -/
theorem complete_relisted_case :
    (flat [['A'], ['a']]).Relisted (flat [['a'], ['A']]) ∧
      complete (flat [['A'], ['a']]) none ['/'] [] "cat ".toList =
        ("cat ".toList, [⟨['A'], ['A']⟩, ⟨['a'], ['a']⟩]) ∧
      complete (flat [['a'], ['A']]) none ['/'] [] "cat ".toList =
        ("cat ".toList, [⟨['a'], ['a']⟩, ⟨['A'], ['A']⟩]) ∧
      complete (flat [['a'], ['A']]) none ['/'] [] "cat ".toList ≠
        complete (flat [['A'], ['a']]) none ['/'] [] "cat ".toList := by
  have hnamed : (flat [['A'], ['a']]).root.NamedByBytes := flat_namedByBytes (by decide)
  have hlarge := @flat_complete [['A'], ['a']] [⟨['A'], ['A']⟩, ⟨['a'], ['a']⟩] (by decide)
    (by decide)
  have hsmall := @flat_complete [['a'], ['A']] [⟨['a'], ['a']⟩, ⟨['A'], ['A']⟩] (by decide)
    (by decide)
  refine ⟨.of_perm (List.Perm.swap _ _ _) hnamed _, hlarge, hsmall, ?_⟩
  rw [hlarge, hsmall]
  decide

end Completion

end LineShell

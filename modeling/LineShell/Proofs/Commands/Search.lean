import LineShell.Commands.Search
import LineShell.Proofs.Files.Entry
import LineShell.Proofs.Files.Grown
import LineShell.Proofs.Text.Order
import Mathlib.Data.List.Nodup

/-! What `find` reports: the first of all that is found in a walk through the directories below the
current one. The walk goes by the names alone, so that it is the same in whatever order the system
lists them. -/

namespace LineShell

/-- Every directory has each string of bytes once as a name. -/
def Node.NamedByBytes (root : Node) : Prop :=
  ∀ l n, root.at? l = some n → (n.entries.map fun e => e.1.bytes).Nodup

theorem Node.NamedByBytes.named {root : Node} (h : root.NamedByBytes) : root.Named := by
  intro l n hn
  have hbytes : ((n.entries.map Prod.fst).map Name.bytes).Nodup := by
    rw [List.map_map]
    exact h l n hn
  exact List.Nodup.of_map _ hbytes

theorem Node.NamedByBytes.of_leaf {n : Node} (h : n.entries = []) : n.NamedByBytes := by
  intro l k hk
  obtain ⟨-, rfl⟩ := eq_of_at?_leaf h hk
  simp [h]

theorem Node.NamedByBytes.dir {mode : Nat} {changed : Time} {entries : List (Name × Node)}
    (hnames : (entries.map fun e => e.1.bytes).Nodup) (h : ∀ e ∈ entries, e.2.NamedByBytes) :
    (Node.dir mode changed entries).NamedByBytes := by
  intro l k hk
  rcases at?_cases hk with ⟨-, rfl⟩ | ⟨x, e, -, he, hk⟩
  · exact hnames
  · exact h e he x k hk

namespace Commands

open FileTree

/-- All that is found below a directory: the entries of the directory itself, then what is found
below each directory in it. -/
def foundBelow (t : FileTree) (accepts : Text → Bool) (p : Place) : List Place :=
  match h : t.list p with
  | .error _ => []
  | .ok entries =>
    (((inOrder entries).filter fun (name, _) => accepts name.shown).map fun (name, _) =>
        p.entry name) ++
      ((inOrder entries).filter (·.2.isDir)).flatMap fun e =>
        have := Place.room_entry_lt h e.1
        foundBelow t accepts (p.entry e.1)
termination_by p.room

section FoundBelow

variable {t t' : FileTree} {accepts : Text → Bool} {p q : Place} {entries : List (Name × Node)}

theorem foundBelow_of_list (h : t.list p = .ok entries) :
    foundBelow t accepts p =
      (((inOrder entries).filter fun (name, _) => accepts name.shown).map fun (name, _) =>
          p.entry name) ++
        ((inOrder entries).filter (·.2.isDir)).flatMap fun e =>
          foundBelow t accepts (p.entry e.1) := by
  rw [foundBelow]
  split
  case h_1 e herror => rw [h] at herror; cases herror
  case h_2 es hes =>
    rw [h] at hes
    cases hes
    rfl

theorem foundBelow_of_no_list {e : IoError} (h : t.list p = .error e) :
    foundBelow t accepts p = [] := by
  rw [foundBelow]
  split
  case h_1 => rfl
  case h_2 es hes => rw [h] at hes; cases hes

/-- What is found below a directory is found by a walk through it, and one below places that are
found a step at a time is cut off once enough is found. -/
theorem foldl_take {α : Type} {limit : Nat} {step : List Place → α → List Place}
    (below : α → List Place) {items : List α}
    (hstep : ∀ found, ∀ a ∈ items, step (found.take limit) a = (found ++ below a).take limit)
    (found : List Place) :
    items.foldl step (found.take limit) = (found ++ items.flatMap below).take limit := by
  induction items generalizing found with
  | nil => simp
  | cons a items ih =>
    rw [List.foldl_cons, hstep found a List.mem_cons_self,
      ih fun found b hb => hstep found b (List.mem_cons_of_mem a hb)]
    simp

/-- A search gives the first of all that is found. -/
theorem search_take (t : FileTree) (accepts : Text → Bool) (limit : Nat) (found : List Place)
    (p : Place) :
    search t accepts limit (found.take limit) p =
      (found ++ foundBelow t accepts p).take limit := by
  induction hroom : p.room using Nat.strong_induction_on generalizing p found with
  | _ room ih =>
    subst hroom
    rw [search]
    split
    case h_1 e herror => rw [foundBelow_of_no_list herror, List.append_nil]
    case h_2 entries hlist =>
      have htake (here : List Place) :
          (found.take limit ++ here).take limit = (found ++ here).take limit := by
        rw [List.take_append, List.take_append, List.take_take, List.length_take]
        congr 2 <;> omega
      simp only [htake]
      rw [foldl_take fun e => foundBelow t accepts (p.entry e.1),
        foundBelow_of_list hlist, List.append_assoc]
      intro found e _
      split
      case isTrue hfull =>
        rw [List.length_take] at hfull
        rw [List.take_append_of_le_length (by omega)]
      case isFalse => exact ih _ (Place.room_entry_lt hlist e.1) found (p.entry e.1) rfl

theorem mem_inOrder {e : Name × Node} : e ∈ inOrder entries ↔ e ∈ entries :=
  List.mem_mergeSort

/-- Entries are gone through by the bytes of their names. -/
theorem pairwise_inOrder (entries : List (Name × Node)) :
    (inOrder entries).Pairwise fun a b => a.1.le b.1 = true :=
  List.pairwise_mergeSort (fun _ _ _ => Text.leBy_trans)
    (fun _ _ => by rw [Bool.or_eq_true]; exact Text.leBy_total) entries

/-- What is found below a directory is one of its entries, or it is found below one of them. -/
theorem mem_foundBelow_of_list (h : t.list p = .ok entries) :
    q ∈ foundBelow t accepts p ↔
      (∃ e ∈ entries, accepts e.1.shown = true ∧ q = p.entry e.1) ∨
        ∃ e ∈ entries, e.2.isDir = true ∧ q ∈ foundBelow t accepts (p.entry e.1) := by
  rw [foundBelow_of_list h, List.mem_append, List.mem_map, List.mem_flatMap]
  simp only [List.mem_filter, mem_inOrder, and_assoc, eq_comm]

/-- An entry at any depth below the directory that `p` leads to, with an accepted name. All
directories on the way to it can be read, and none of them is gone to by a link. -/
def IsMatch (t : FileTree) (accepts : Text → Bool) (p q : Place) : Prop :=
  ∃ l d, t.find true p = .ok (.entry l d) ∧
    ∃ name way, q = p.down (name :: way) ∧ (∃ n, t.root.at? (name :: way ++ l) = some n) ∧
      accepts name.shown = true ∧ ∀ above, above <:+ way → ∃ es, t.list (p.down above) = .ok es

theorem find_of_list (h : t.list p = .ok entries) :
    ∃ l d, t.find true p = .ok (.entry l d) ∧ d.isDir = true ∧ d.entries = entries := by
  obtain ⟨l, d, hfind, hdir, -, rfl⟩ := (list_eq_ok_iff t p entries).mp h
  exact ⟨l, d, hfind, hdir, rfl⟩

/-- A directory in another one that is listed is found there. -/
theorem find_entry_of_list {l : Location} {d m : Node} {a : Name}
    {entries : List (Name × Node)} (hp : t.find true p = .ok (.entry l d)) (hdir : d.isDir = true)
    (hm : t.root.at? (a :: l) = some m) (hmdir : m.isDir = true)
    (hlist : t.list (p.entry a) = .ok entries) :
    t.find true (p.entry a) = .ok (.entry (a :: l) m) := by
  have hlink (m' : Node) (hm' : t.root.at? (a :: l) = some m') (hislink : m'.isLink = true) :
      true = false := by
    rw [hm] at hm'
    cases hm'
    rw [isLink_of_isDir hmdir] at hislink
    cases hislink
  have hunder := Place.under_entry p a
  obtain ⟨l', d', hfind, -⟩ := find_of_list hlist
  obtain ⟨hname, hsearch, hsize, -⟩ := (find_under_iff hp hdir hunder hlink).mp hfind
  refine (find_under_iff hp hdir hunder hlink).mpr ⟨hname, hsearch, hsize, ?_⟩
  rw [Node.at?_cons, find_holds hp] at hm
  rw [lookedUp, show List.lookup a d.entries = some m from hm]

theorem mem_foundBelow_iff (hnamed : t.root.Named) :
    q ∈ foundBelow t accepts p ↔ IsMatch t accepts p q := by
  induction hroom : p.room using Nat.strong_induction_on generalizing p with
  | _ room ih =>
    subst hroom
    cases hlist : t.list p with
    | error e =>
      rw [foundBelow_of_no_list hlist]
      refine ⟨fun hnil => absurd hnil List.not_mem_nil, ?_⟩
      rintro ⟨l, d, -, name, way, -, -, -, hways⟩
      obtain ⟨es, hes⟩ := hways [] List.nil_suffix
      rw [show p.down [] = p from rfl, hlist] at hes
      cases hes
    | ok entries =>
      obtain ⟨l, d, hfind, hdir, rfl⟩ := find_of_list hlist
      have hentries (e : Name × Node) : e ∈ d.entries ↔ t.root.at? (e.1 :: l) = some e.2 :=
        hnamed.mem_entries_iff (find_holds hfind)
      rw [mem_foundBelow_of_list hlist]
      constructor
      · rintro (⟨e, he, haccept, rfl⟩ | ⟨e, he, hedir, hq⟩)
        · refine ⟨l, d, hfind, e.1, [], rfl, ⟨e.2, (hentries e).mp he⟩, haccept, ?_⟩
          intro above habove
          rw [List.suffix_nil.mp habove]
          exact ⟨_, hlist⟩
        · obtain ⟨l', d', hfind', name, way, rfl, ⟨n, hn⟩, haccept, hways⟩ :=
            (ih _ (Place.room_entry_lt hlist e.1) rfl).mp hq
          obtain ⟨es, hes⟩ := hways [] List.nil_suffix
          have hentry := find_entry_of_list hfind hdir ((hentries e).mp he) hedir hes
          rw [hfind'] at hentry
          cases hentry
          refine ⟨l, d, hfind, name, way ++ [e.1], Place.entry_down p e.1 (name :: way), ⟨n, ?_⟩,
            haccept, ?_⟩
          · rwa [List.cons_append, List.append_assoc]
          · intro above habove
            obtain rfl | ⟨x, rfl, hx⟩ := List.suffix_concat_iff.mp habove
            · exact ⟨_, hlist⟩
            · exact Place.entry_down p e.1 x ▸ hways x hx
      · rintro ⟨l', d', hfind', name, way, rfl, ⟨n, hn⟩, haccept, hways⟩
        rw [hfind] at hfind'
        cases hfind'
        cases way using List.reverseRecOn with
        | nil => exact .inl ⟨(name, n), (hentries (name, n)).mpr hn, haccept, rfl⟩
        | append_singleton way a _ =>
          right
          rw [List.cons_append, List.append_assoc] at hn
          obtain ⟨m', hm', hmdir', -⟩ := Node.exists_above hn
          obtain ⟨m, hm, hmdir⟩ := Node.isDir_above hm' hmdir'
          obtain ⟨es, hes⟩ := hways [a] (List.suffix_append way [a])
          refine ⟨(a, m), (hentries (a, m)).mpr hm, hmdir,
            (ih _ (Place.room_entry_lt hlist a) rfl).mpr ⟨a :: l, m,
              find_entry_of_list hfind hdir hm hmdir hes, name, way,
              (Place.entry_down p a (name :: way)).symm, ⟨n, hn⟩, haccept, ?_⟩⟩
          intro x hx
          exact (Place.entry_down p a x).symm ▸
            hways (x ++ [a]) (List.suffix_concat_iff.mpr (.inr ⟨x, rfl, hx⟩))

theorem entry_injective (p : Place) : Function.Injective p.entry := by
  intro a b h
  exact (List.cons.inj (congrArg Place.inside h)).1

/-- Nothing is found twice. -/
theorem nodup_foundBelow (hnamed : t.root.Named) : (foundBelow t accepts p).Nodup := by
  induction hroom : p.room using Nat.strong_induction_on generalizing p with
  | _ room ih =>
    subst hroom
    cases hlist : t.list p with
    | error e =>
      rw [foundBelow_of_no_list hlist]
      exact List.nodup_nil
    | ok entries =>
      obtain ⟨l, d, hfind, -, rfl⟩ := find_of_list hlist
      have hnames (kept : Name × Node → Bool) :
          (((inOrder d.entries).filter kept).map Prod.fst).Nodup :=
        (((List.mergeSort_perm _ _).map Prod.fst).nodup_iff.mpr
          (hnamed l d (find_holds hfind))).sublist (List.filter_sublist.map Prod.fst)
      have hbelow {e : Name × Node} {q : Place} (hq : q ∈ foundBelow t accepts (p.entry e.1)) :
          ∃ name way, q = p.down (name :: way ++ [e.1]) := by
        obtain ⟨-, -, -, name, way, rfl, -⟩ := (mem_foundBelow_iff hnamed).mp hq
        exact ⟨name, way, Place.entry_down p e.1 (name :: way)⟩
      rw [foundBelow_of_list hlist, List.nodup_append']
      refine ⟨?_, ?_, ?_⟩
      · have hhere := (hnames fun e => accepts e.1.shown).map (entry_injective p)
        rwa [List.map_map] at hhere
      · rw [List.nodup_flatMap]
        refine ⟨fun e _ => ih _ (Place.room_entry_lt hlist e.1) rfl, ?_⟩
        refine (List.pairwise_map.mp (hnames fun e => e.2.isDir)).imp fun hne q hq hq' => ?_
        obtain ⟨name, way, rfl⟩ := hbelow hq
        obtain ⟨name', way', hsame⟩ := hbelow hq'
        have hlast := List.append_inj_right' (Place.down_injective p hsame) rfl
        exact hne (List.cons.inj hlast).1
      · intro q hhere hq
        obtain ⟨a, -, rfl⟩ := List.mem_map.mp hhere
        obtain ⟨e, -, hq⟩ := List.mem_flatMap.mp hq
        obtain ⟨name, way, hsame⟩ := hbelow hq
        have hlength := congrArg List.length (@Place.down_injective p [a.1] _ hsame)
        simp at hlength

/-- What the walk goes by of an entry: its name, and whether it is a directory. -/
def walkedBy (e : Name × Node) : Name × Bool :=
  (e.1, e.2.isDir)

theorem foundBelow_of_walkedBy (h : t.list p = .ok entries) :
    foundBelow t accepts p =
      ((((inOrder entries).map walkedBy).filter fun k => accepts k.1.shown).map fun k =>
          p.entry k.1) ++
        (((inOrder entries).map walkedBy).filter (·.2)).flatMap fun k =>
          foundBelow t accepts (p.entry k.1) := by
  rw [foundBelow_of_list h, List.filter_map, List.map_map, List.filter_map, List.flatMap_map]
  rfl

end FoundBelow

end Commands

/-- Trees with the same things at the same places, which the system may list in another order. -/
structure FileTree.Relisted (t t' : FileTree) : Prop where
  same : ∀ l, t.root.AgreeAt t'.root l
  named : t.root.NamedByBytes
  named' : t'.root.NamedByBytes

/-- The root directory may be listed in any order. -/
theorem FileTree.Relisted.of_perm {mode : Nat} {changed : Time} {es es' : List (Name × Node)}
    (hperm : es.Perm es') (hnamed : (Node.dir mode changed es).NamedByBytes)
    (files : List FileData) :
    Relisted { root := .dir mode changed es, files } { root := .dir mode changed es', files } := by
  have hnamed' : (Node.dir mode changed es').NamedByBytes := by
    refine .dir ((hperm.map _).nodup_iff.mp (hnamed [] _ rfl)) fun e he l n hn => ?_
    have hentry := (hnamed.named.mem_entries_iff (l := []) rfl).mp (hperm.mem_iff.mpr he)
    refine hnamed (l ++ [e.1]) n ?_
    rw [Node.at?_append, hentry]
    exact hn
  refine ⟨fun l => ?_, hnamed, hnamed'⟩
  cases l using List.reverseRecOn with
  | nil => exact .some rfl
  | append_singleton l a _ =>
    refine .of_eq ?_
    have hsame : (Node.dir mode changed es).at? [a] = (Node.dir mode changed es').at? [a] :=
      Option.ext fun n => by
        rw [← hnamed.named.mem_entries_iff (l := []) rfl,
          ← hnamed'.named.mem_entries_iff (l := []) rfl]
        exact hperm.mem_iff
    rw [Node.at?_append, Node.at?_append, hsame]

namespace FileTree.Relisted

variable {t t' : FileTree} {accepts : Text → Bool} {p : Place} {entries : List (Name × Node)}

theorem symm (h : t.Relisted t') : t'.Relisted t :=
  ⟨fun l => (h.same l).symm, h.named', h.named⟩

theorem within (h : t.Relisted t') : t.root.Within t'.root :=
  fun l _ hn => (h.same l).alike hn

theorem mem_walkedBy {l : Location} {d d' : Node} (h : t.Relisted t')
    (hd : t.root.at? l = some d) (hd' : t'.root.at? l = some d') {k : Name × Bool}
    (hk : k ∈ d.entries.map Commands.walkedBy) : k ∈ d'.entries.map Commands.walkedBy := by
  obtain ⟨⟨name, n⟩, hn, rfl⟩ := List.mem_map.mp hk
  obtain ⟨n', hn', halike⟩ := h.within _ n ((h.named.named.mem_entries_iff hd).mp hn)
  exact List.mem_map.mpr ⟨(name, n'), (h.named'.named.mem_entries_iff hd').mpr hn',
    Prod.ext rfl halike.isDir.symm⟩

/-- The entries that a walk goes by are the same ones in the same order. -/
theorem walkedBy_inOrder {l : Location} {d d' : Node} (h : t.Relisted t')
    (hd : t.root.at? l = some d) (hd' : t'.root.at? l = some d') :
    (Commands.inOrder d.entries).map Commands.walkedBy =
      (Commands.inOrder d'.entries).map Commands.walkedBy := by
  have hbytes {root : Node} (hnamed : root.NamedByBytes) {d : Node}
      (hd : root.at? l = some d) :
      ((d.entries.map Commands.walkedBy).map fun k => k.1.bytes).Nodup := by
    rw [List.map_map]
    exact hnamed l d hd
  have hperm : (d.entries.map Commands.walkedBy).Perm (d'.entries.map Commands.walkedBy) :=
    (List.perm_ext_iff_of_nodup (.of_map _ (hbytes h.named hd))
      (.of_map _ (hbytes h.named' hd'))).mpr
      fun k => ⟨h.mem_walkedBy hd hd', h.symm.mem_walkedBy hd' hd⟩
  have hsorted (es : List (Name × Node)) :
      ((Commands.inOrder es).map Commands.walkedBy).Pairwise fun a b => a.1.le b.1 = true :=
    List.pairwise_map.mpr (Commands.pairwise_inOrder es)
  have hinOrder (es : List (Name × Node)) :
      ((Commands.inOrder es).map Commands.walkedBy).Perm (es.map Commands.walkedBy) :=
    (List.mergeSort_perm es _).map Commands.walkedBy
  refine List.Perm.eq_of_pairwise (fun a b ha hb hab hba => ?_) (hsorted _) (hsorted _)
    ((hinOrder _).trans (hperm.trans (hinOrder _).symm))
  exact List.inj_on_of_nodup_map (hbytes h.named hd) ((hinOrder _).mem_iff.mp ha)
    (hperm.mem_iff.mpr ((hinOrder _).mem_iff.mp hb))
    (Text.leBy_antisymm (fun _ _ => UInt8.toNat_inj.mp) hab hba)

theorem exists_list (h : t.Relisted t') (hlist : t.list p = .ok entries) :
    ∃ entries', t'.list p = .ok entries' ∧
      (Commands.inOrder entries).map Commands.walkedBy =
        (Commands.inOrder entries').map Commands.walkedBy := by
  obtain ⟨l, d, hfind, hdir, hread, rfl⟩ := (list_eq_ok_iff t p entries).mp hlist
  obtain ⟨d', halike, hfind'⟩ := find_grown h.within hfind
  exact ⟨d'.entries, (list_eq_ok_iff t' p _).mpr ⟨l, d', hfind', halike.isDir ▸ hdir,
    halike.grants .read ▸ hread, rfl⟩, h.walkedBy_inOrder (find_holds hfind) (find_holds hfind')⟩

/-- The walk is the same in whatever order the entries are listed. -/
theorem foundBelow_eq (h : t.Relisted t') :
    Commands.foundBelow t' accepts p = Commands.foundBelow t accepts p := by
  induction hroom : p.room using Nat.strong_induction_on generalizing p with
  | _ room ih =>
    subst hroom
    cases hlist : t.list p with
    | error e =>
      rw [Commands.foundBelow_of_no_list hlist]
      cases hlist' : t'.list p with
      | error e' => exact Commands.foundBelow_of_no_list hlist'
      | ok entries' =>
        obtain ⟨entries, hentries, -⟩ := h.symm.exists_list hlist'
        rw [hlist] at hentries
        cases hentries
    | ok entries =>
      obtain ⟨entries', hlist', hsame⟩ := h.exists_list hlist
      rw [Commands.foundBelow_of_walkedBy hlist, Commands.foundBelow_of_walkedBy hlist', hsame]
      congr 2
      funext k
      exact ih _ (Place.room_entry_lt hlist k.1) rfl

end FileTree.Relisted

namespace Commands

/-- What is reported of all matches below a place: the first of the walk, so many as are allowed,
and each once. -/
structure Reports (t : FileTree) (accepts : Text → Bool) (p : Place) (limit : Nat)
    (found : List Place) : Prop where
  first : found = (foundBelow t accepts p).take limit
  once : found.Nodup
  sound : ∀ q ∈ found, IsMatch t accepts p q
  /-- The matches, in any order, are all reported, or so many as are allowed. -/
  all : ∀ ms : List Place, ms.Nodup → (∀ q, q ∈ ms ↔ IsMatch t accepts p q) →
    (ms.length ≤ limit → found.Perm ms) ∧ (limit < ms.length → found.length = limit)
  nothing_iff : found = [] ↔ ∀ q, ¬ IsMatch t accepts p q

theorem reports_search {t : FileTree} (hnamed : t.root.Named) (accepts : Text → Bool) {limit : Nat}
    (hlimit : limit ≠ 0) (p : Place) : Reports t accepts p limit (search t accepts limit [] p) := by
  have hfirst : search t accepts limit [] p = (foundBelow t accepts p).take limit := by
    have htake := search_take t accepts limit [] p
    rwa [List.take_nil, List.nil_append] at htake
  have hnodup : (foundBelow t accepts p).Nodup := nodup_foundBelow hnamed
  refine ⟨hfirst, ?_, ?_, fun ms hms hmem => ?_, ?_⟩
  · exact hfirst ▸ hnodup.sublist (List.take_sublist _ _)
  · intro q hq
    exact (mem_foundBelow_iff hnamed).mp (List.mem_of_mem_take (hfirst ▸ hq))
  · have hperm : (foundBelow t accepts p).Perm ms :=
      (List.perm_ext_iff_of_nodup hnodup hms).mpr fun q =>
        (mem_foundBelow_iff hnamed).trans (hmem q).symm
    rw [hfirst, ← hperm.length_eq]
    exact ⟨fun hfew => by rwa [List.take_of_length_le hfew],
      fun hmany => List.length_take_of_le hmany.le⟩
  · rw [hfirst, List.take_eq_nil_iff, or_iff_right hlimit, List.eq_nil_iff_forall_not_mem]
    exact forall_congr' fun q => not_congr (mem_foundBelow_iff hnamed)

/-- What `find` says of the places that are found. -/
def foundReport (typed : Text) (found : List Place) : Text :=
  if found = [] then "Nothing found for pattern: " ++ typed
  else Text.stacked (found.map Place.shown)

theorem find_of_parse {arguments : List Text} {typed : Text} {pattern : Glob.Pattern}
    (htyped : arguments.getLast? = some typed)
    (hparse : Glob.Pattern.parse (dropQuotes typed) = .ok pattern) (w : Workspace) :
    find arguments w = .ok (foundReport (dropQuotes typed)
      (search w.tree pattern.accepts findLimit [] w.cwd)) := by
  simp only [find, htyped, hparse, foundReport, List.isEmpty_iff]

theorem head?_join {base p : Path} (h : Path.isAbsolute base = true) :
    (Path.join base p).head? = some '/' := by
  rw [Path.isAbsolute, decide_eq_true_eq] at h
  rw [Path.join]
  split_ifs with habsolute
  · rwa [Path.isAbsolute, decide_eq_true_eq] at habsolute
  · rw [List.head?_append, h, Option.some_or]
  · rw [List.head?_append, h, Option.some_or]

theorem head?_shown {p : Place} (h : Path.isAbsolute p.path = true) :
    p.shown.head? = some '/' := by
  rw [Place.shown]
  induction p.inside with
  | nil => simpa [Path.isAbsolute] using h
  | cons n outer ih => exact head?_join (by rw [Path.isAbsolute, ih]; rfl)

/-- Places below the root are not mistaken for the word that nothing is found. -/
theorem foundReport_eq_nothing_iff {typed : Text} {found : List Place}
    (h : ∀ q ∈ found, Path.isAbsolute q.path = true) :
    foundReport typed found = "Nothing found for pattern: " ++ typed ↔ found = [] := by
  rw [foundReport]
  split_ifs with hnone
  · exact iff_of_true rfl hnone
  · refine iff_of_false (fun hsame => ?_) hnone
    obtain ⟨q, rest, rfl⟩ := List.exists_cons_of_ne_nil hnone
    have hslash : (Text.stacked ((q :: rest).map Place.shown)).head? = some '/' := by
      have hq := head?_shown (h q List.mem_cons_self)
      cases rest <;> simp [Text.stacked, Text.joined, hq]
    rw [hsame] at hslash
    simp at hslash

/-- `find` reports the first hundred matches of the walk through all directories below the current
one, each once, whatever the names are matched with. It says that nothing is found just where
nothing matches. In which order the system lists the entries does not matter. -/
theorem find_reports_first {w : Workspace} (hnamed : w.tree.root.NamedByBytes) :
    (∀ accepts, Reports w.tree accepts w.cwd 100
      (search w.tree accepts findLimit [] w.cwd)) ∧
    (∀ arguments typed pattern, arguments.getLast? = some typed →
      Glob.Pattern.parse (dropQuotes typed) = .ok pattern →
      find arguments w = .ok (foundReport (dropQuotes typed)
        (search w.tree pattern.accepts findLimit [] w.cwd)) ∧
      (Path.isAbsolute w.cwd = true →
        (find arguments w = .ok ("Nothing found for pattern: " ++ dropQuotes typed) ↔
          ∀ q, ¬ IsMatch w.tree pattern.accepts w.cwd q))) ∧
    ∀ tree', w.tree.Relisted tree' →
      (∀ accepts, search tree' accepts findLimit [] w.cwd =
        search w.tree accepts findLimit [] w.cwd) ∧
      ∀ arguments, find arguments { w with tree := tree' } = find arguments w := by
  have hreports accepts : Reports w.tree accepts w.cwd 100
      (search w.tree accepts findLimit [] w.cwd) :=
    reports_search hnamed.named accepts (by decide) w.cwd
  refine ⟨hreports, fun arguments typed pattern htyped hparse => ⟨?_, fun hcwd => ?_⟩, ?_⟩
  · exact find_of_parse htyped hparse w
  · rw [find_of_parse htyped hparse, Except.ok.injEq, ← (hreports pattern.accepts).nothing_iff]
    refine foundReport_eq_nothing_iff fun q hq => ?_
    obtain ⟨-, -, -, name, way, rfl, -⟩ := (hreports pattern.accepts).sound q hq
    exact hcwd
  · intro tree' hrelisted
    have hsearch accepts : search tree' accepts findLimit [] w.cwd =
        search w.tree accepts findLimit [] w.cwd := by
      rw [(hreports accepts).first, ← hrelisted.foundBelow_eq]
      exact (reports_search hrelisted.named'.named accepts (by decide) _).first
    refine ⟨hsearch, fun arguments => ?_⟩
    simp only [find, hsearch]

/-- A directory beside a file, the file listed first, and one more file in the directory. -/
def scattered : Workspace where
  cwd := ['/']
  tree :=
    { root := .dir 0o755 0 [(Name.ofText ['b'], .file 0),
        (Name.ofText ['a'], .dir 0o755 0 [(Name.ofText ['b'], .file 0)])]
      files := [] }

/-- The same tree, with the directory listed first. -/
def gathered : FileTree where
  root := .dir 0o755 0 [(Name.ofText ['a'], .dir 0o755 0 [(Name.ofText ['b'], .file 0)]),
    (Name.ofText ['b'], .file 0)]
  files := []

theorem find_reports_first_scattered :
    scattered.tree.root.NamedByBytes ∧ scattered.tree.Relisted gathered ∧
      find [['?']] scattered = .ok "/a\n/b\n/a/b".toList ∧
      find [['?']] { scattered with tree := gathered } = .ok "/a\n/b\n/a/b".toList := by
  have hnamed : scattered.tree.root.NamedByBytes :=
    .dir (by decide) (by
      simpa using ⟨.of_leaf rfl, .dir (by decide) (by simpa using .of_leaf rfl)⟩)
  have hrelisted : scattered.tree.Relisted gathered :=
    .of_perm (List.Perm.swap _ _ _) hnamed _
  obtain ⟨hreports, hanswer, hsame⟩ := find_reports_first hnamed
  have hpass : FileTree.Passable scattered.tree.root [] := ⟨_, rfl, rfl, rfl⟩
  have hroot : scattered.tree.list scattered.cwd = .ok scattered.tree.root.entries := by
    refine (FileTree.list_eq_ok_iff _ _ _).mpr ⟨[], scattered.tree.root, ?_, rfl, rfl, rfl⟩
    exact (FileTree.find_eq_ok_iff _ _ _ _).mpr ⟨by decide, .root hpass (.arrived rfl)⟩
  have ha : scattered.tree.list (Place.entry scattered.cwd (Name.ofText ['a'])) =
      .ok [(Name.ofText ['b'], .file 0)] := by
    refine (FileTree.list_eq_ok_iff _ _ _).mpr
      ⟨[Name.ofText ['a']], .dir 0o755 0 [(Name.ofText ['b'], .file 0)], ?_, rfl, rfl, rfl⟩
    exact (FileTree.find_eq_ok_iff _ _ _ _).mpr
      ⟨by decide, .root hpass (.enter hpass (by decide) rfl rfl (.arrived rfl))⟩
  have hparse : Glob.Pattern.parse (dropQuotes ['?']) = .ok [.any] := by
    rw [show dropQuotes ['?'] = ['?'] by decide, Glob.Pattern.parse, Glob.tokens, Glob.tokens]
    rfl
  have hsorted : inOrder scattered.tree.root.entries =
      [(Name.ofText ['a'], .dir 0o755 0 [(Name.ofText ['b'], .file 0)]),
        (Name.ofText ['b'], .file 0)] := by
    have hlater : (Name.ofText ['b']).le (Name.ofText ['a']) = false := by decide
    simp [inOrder, scattered, Node.entries, List.mergeSort, hlater]
  have hnone : inOrder [(Name.ofText ['b'], .file 0)] = [(Name.ofText ['b'], .file 0)] :=
    List.mergeSort_singleton _
  have hfound : foundBelow scattered.tree (Glob.Pattern.accepts [.any]) scattered.cwd =
      [Place.entry scattered.cwd (Name.ofText ['a']),
        Place.entry scattered.cwd (Name.ofText ['b']),
        (Place.entry scattered.cwd (Name.ofText ['a'])).entry (Name.ofText ['b'])] := by
    have hbelow : foundBelow scattered.tree (Glob.Pattern.accepts [.any])
        (Place.entry scattered.cwd (Name.ofText ['a'])) =
          [(Place.entry scattered.cwd (Name.ofText ['a'])).entry (Name.ofText ['b'])] := by
      rw [foundBelow_of_list ha, hnone]
      rfl
    rw [foundBelow_of_list hroot, hsorted]
    change _ ++ (foundBelow _ _ _ ++ []) = _
    rw [hbelow]
    rfl
  have hfind : find [['?']] scattered = .ok "/a\n/b\n/a/b".toList := by
    rw [(hanswer [['?']] ['?'] [.any] rfl hparse).1, (hreports _).first, hfound]
    decide
  exact ⟨hnamed, hrelisted, hfind, ((hsame gathered hrelisted).2 _).trans hfind⟩

end Commands

end LineShell

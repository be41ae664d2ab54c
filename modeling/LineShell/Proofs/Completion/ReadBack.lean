import LineShell.Completion.Candidate
import LineShell.Proofs.Line.Verbatim

/-! Completed paths, and when the line that they are put into is read as it was, with the path as
one more word. The completer minds spaces and nothing else, and does not know of backslashes. -/

namespace LineShell.Name

@[simp] theorem shown_ofText (t : Text) : (ofText t).shown = t := by
  induction t with
  | nil => rfl
  | cons c t ih => exact congrArg (c :: ·) ih

end LineShell.Name

namespace LineShell.Completion

open Line

namespace Reader

theorem push_text (r : Reader) (c : Char) :
    (r.push c).word ++ (r.push c).before = c :: (r.word ++ r.before) := by
  unfold push
  split_ifs <;> rfl

/-- Nothing of a line is lost. -/
theorem foldl_push_text (line : Text) (r : Reader) :
    (line.foldl push r).word ++ (line.foldl push r).before =
      line.reverse ++ (r.word ++ r.before) := by
  induction line generalizing r with
  | nil => rfl
  | cons c line ih => simp [ih, push_text]

/-- Behind a word the text in front of the current one ends in a blank. -/
def Parted (r : Reader) : Prop :=
  r.completed = 0 ∨ ∃ c ∈ r.before.head?, Text.isBlank c = true

theorem Parted.push {r : Reader} (h : r.Parted) (c : Char) : (r.push c).Parted := by
  unfold Reader.push
  split_ifs with hsingle hdouble hblank hnone
  · exact h
  · exact h
  · exact .inr ⟨c, rfl, hblank.1⟩
  · exact .inr ⟨c, rfl, hblank.1⟩
  · exact h

theorem Parted.foldl_push {r : Reader} (h : r.Parted) (line : Text) :
    (line.foldl Reader.push r).Parted := by
  induction line generalizing r with
  | nil => exact h
  | cons c line ih => exact ih (h.push c)

end Reader

theorem before_append_word (line : Text) :
    (currentWord line).before ++ (currentWord line).word = line := by
  have h := Reader.foldl_push_text line {}
  rw [List.append_nil, List.append_nil] at h
  rw [currentWord, ← List.reverse_append, h, List.reverse_reverse]

/-- A blank stands in front of a later word. -/
theorem exists_blank_before {line : Text} (h : (currentWord line).isFirst = false) :
    ∃ before c, (currentWord line).before = before ++ [c] ∧ Text.isBlank c = true := by
  have hparted : (line.foldl Reader.push {}).Parted := Reader.Parted.foldl_push (.inl rfl) line
  obtain hnone | ⟨c, hc, hblank⟩ := hparted
  · simp [currentWord, hnone] at h
  · obtain ⟨rest, hrest⟩ := List.head?_eq_some_iff.mp hc
    refine ⟨rest.reverse, c, ?_, hblank⟩
    rw [currentWord, hrest, List.reverse_cons]

/-- The part of a word that is completed: all but a quote that it begins with. -/
def typedPath (word : Text) : Text :=
  word.drop (openQuote? word).toList.length

/-- The directory part of a word. -/
def typedDir (word : Text) : Text :=
  (splitPath (typedPath word)).1

/-- The path of an entry: the directory part, the name, and a slash behind a directory. -/
def entryPath (dirPart : Text) (name : Name) (n : Node) : Text :=
  dirPart ++ name.shown ++ if n.isDir then ['/'] else []

/-- The candidate that an entry is for a word. -/
def offer (word : Text) (name : Name) (n : Node) : Candidate :=
  let c := ofEntry (typedDir word) name n
  if (openQuote? word).isSome then c else c.quoted

theorem replacement_ofEntry (dirPart : Text) (name : Name) (n : Node) :
    (ofEntry dirPart name n).replacement = entryPath dirPart name n := by
  unfold ofEntry entryPath
  cases n.isDir <;> simp

theorem mem_completePath_iff {t : FileTree} {home : Option Path} {cwd : Path} {p : Text}
    {c : Candidate} :
    c ∈ completePath t home cwd p ↔
      ∃ entries name n, t.list (searchedDir home cwd (splitPath p).1) = .ok entries ∧
        (name, n) ∈ entries ∧ offered (splitPath p).2 name.shown = true ∧
        c = ofEntry (splitPath p).1 name n := by
  unfold completePath
  cases hlist : t.list (searchedDir home cwd (splitPath p).1) with
  | error e => simp [hlist]
  | ok entries =>
    simp only [hlist, List.mem_mergeSort, List.mem_map, List.mem_filter, Prod.exists,
      Except.ok.injEq]
    constructor
    · rintro ⟨name, n, ⟨hentry, hoffered⟩, rfl⟩
      exact ⟨entries, name, n, rfl, hentry, hoffered, rfl⟩
    · rintro ⟨_, name, n, rfl, hentry, hoffered, rfl⟩
      exact ⟨name, n, ⟨hentry, hoffered⟩, rfl⟩

variable {t : FileTree} {home : Option Path} {cwd : Path} {names : List Text} {line : Text}

/-- A later word is completed to paths. A quote in front of it stays. -/
theorem complete_later (hlater : (currentWord line).isFirst = false) :
    complete t home cwd names line =
      ((currentWord line).before ++ (openQuote? (currentWord line).word).toList,
        (completePath t home cwd (typedPath (currentWord line).word)).map fun c =>
          if (openQuote? (currentWord line).word).isSome then c else c.quoted) := by
  unfold complete typedPath
  cases hquote : openQuote? (currentWord line).word <;> simp [hlater, hquote]

theorem mem_complete (hlater : (currentWord line).isFirst = false) {c : Candidate}
    (hc : c ∈ (complete t home cwd names line).2) :
    ∃ entries name n,
      t.list (searchedDir home cwd (typedDir (currentWord line).word)) = .ok entries ∧
      (name, n) ∈ entries ∧ c = offer (currentWord line).word name n := by
  rw [complete_later hlater] at hc
  obtain ⟨plain, hplain, rfl⟩ := List.mem_map.mp hc
  obtain ⟨entries, name, n, hlist, hentry, -, rfl⟩ := mem_completePath_iff.mp hplain
  exact ⟨entries, name, n, hlist, hentry, rfl⟩

/-- What stands in the line for a path, from the quote on if the word begins with one. -/
def written (quote : Option Char) (path : Text) : Text :=
  match quote with
  | some q => q :: path
  | none => if ' ' ∈ path then '"' :: path ++ ['"'] else path

theorem written_offer (word : Text) (name : Name) (n : Node) :
    (openQuote? word).toList ++ (offer word name n).replacement =
      written (openQuote? word) (entryPath (typedDir word) name n) := by
  unfold offer written
  cases openQuote? word with
  | some q => simp [replacement_ofEntry]
  | none =>
    simp only [Option.isSome_none, Bool.false_eq_true, if_false, Candidate.quoted,
      replacement_ofEntry, List.contains_iff_mem]
    split_ifs <;> simp [replacement_ofEntry]

/-- The paths that can be put as they are behind a quote, or behind none. Without a quote, a path
with a space in it is put between double ones. -/
def CanStand (quote : Option Char) (path : Text) : Prop :=
  match quote with
  | some q => q ∉ path ∧ '\\' ∉ path
  | none =>
    if ' ' ∈ path then '"' ∉ path ∧ '\\' ∉ path
    else ∀ c ∈ path, Text.isBlank c = false ∧ c ∉ quotingSigns ∧ c ≠ '<' ∧ c ≠ '>'

instance (quote : Option Char) (path : Text) : Decidable (CanStand quote path) :=
  match quote with
  | some q => inferInstanceAs (Decidable (q ∉ path ∧ '\\' ∉ path))
  | none => inferInstanceAs (Decidable (if ' ' ∈ path then '"' ∉ path ∧ '\\' ∉ path
      else ∀ c ∈ path, Text.isBlank c = false ∧ c ∉ quotingSigns ∧ c ≠ '<' ∧ c ≠ '>'))

theorem roleIn_of_openQuote? {word : Text} {q : Char} (h : openQuote? word = some q) :
    ∃ opened, roleIn .bare q = (opened, .quote) ∧
      ∀ c, IsLetterIn opened c ↔ c ≠ q ∧ c ≠ '\\' := by
  unfold openQuote? at h
  split at h
  · cases h
    exact ⟨.double, rfl, fun c => by simp [IsLetterIn, isKeptIn_double]⟩
  · cases h
    exact ⟨.single, rfl, fun c => by simp [IsLetterIn, isKeptIn_single]⟩
  · cases h

private theorem forall_ne_and {path : Text} {a b : Char} :
    (∀ c ∈ path, c ≠ a ∧ c ≠ b) ↔ a ∉ path ∧ b ∉ path := by
  constructor
  · exact fun h => ⟨fun ha => (h a ha).1 rfl, fun hb => (h b hb).2 rfl⟩
  · rintro ⟨ha, hb⟩ c hc
    exact ⟨fun hca => ha (hca ▸ hc), fun hcb => hb (hcb ▸ hc)⟩

theorem lexemes_written_iff (word path : Text) :
    lexemes .bare (written (openQuote? word) path) = path.map .letter ↔
      CanStand (openQuote? word) path := by
  unfold written CanStand
  cases hquote : openQuote? word with
  | some q =>
    obtain ⟨opened, hopens, hletters⟩ := roleIn_of_openQuote? hquote
    simp only [lexemes_inside_iff hopens, hletters, forall_ne_and]
  | none =>
    by_cases hspace : ' ' ∈ path
    · simp only [if_pos hspace, lexemes_between_iff, IsLetterIn, isKeptIn_double]
      simp [forall_ne_and]
    · simp only [if_neg hspace, lexemes_plain_iff, IsLetterIn, isKeptIn_bare]
      simp [and_assoc]

theorem lexemes_written {word path : Text} (mode : Mode)
    (h : GivesLetters mode (written (openQuote? word) path) path) :
    lexemes mode (written (openQuote? word) path) = path.map .letter := by
  unfold written at h ⊢
  cases hquote : openQuote? word with
  | some q =>
    obtain ⟨opened, hopens, -⟩ := roleIn_of_openQuote? hquote
    rw [hquote] at h
    exact h.lexemes_inside hopens
  | none =>
    simp only [hquote] at h ⊢
    split_ifs at h ⊢ with hspace
    · obtain ⟨rfl, hletters⟩ := h.lexemes_between hspace
      exact (lexemes_between_iff path).mpr hletters
    · exact h.lexemes_plain

/-- The line with a completed path in it is read as the line in front of the word and the path as
one more word just if the word begins behind a blank that separates words, and the path can stand
there. A name that is a text is shown as it is. -/
theorem tokenize_complete_iff (t : FileTree) (home : Option Path) (cwd : Path)
    (names : List Text) (line : Text) (hlater : (currentWord line).isFirst = false)
    {c : Candidate} (hc : c ∈ (complete t home cwd names line).2) :
    (complete t home cwd names line).1 <+: line ∧
    ∃ entries name n,
      t.list (searchedDir home cwd (typedDir (currentWord line).word)) = .ok entries ∧
      (name, n) ∈ entries ∧ c = offer (currentWord line).word name n ∧
      (tokenize ((complete t home cwd names line).1 ++ c.replacement) =
          tokenize (currentWord line).before ++
            [.word (entryPath (typedDir (currentWord line).word) name n)] ↔
        Separated (currentWord line).before ∧
        entryPath (typedDir (currentWord line).word) name n ≠ [] ∧
        CanStand (openQuote? (currentWord line).word)
          (entryPath (typedDir (currentWord line).word) name n)) := by
  obtain ⟨entries, name, n, hlist, hentry, rfl⟩ := mem_complete hlater hc
  obtain ⟨before, blank, hbefore, hblank⟩ := exists_blank_before hlater
  refine ⟨?_, entries, name, n, hlist, hentry, rfl, ?_⟩
  · have hprefix : (openQuote? (currentWord line).word).toList <+: (currentWord line).word := by
      unfold openQuote?
      split <;> simp_all
    rw [complete_later hlater]
    conv => arg 2; rw [← before_append_word line]
    exact (List.prefix_append_right_inj _).mpr hprefix
  · rw [complete_later hlater, List.append_assoc, written_offer, hbefore,
      tokenize_word_iff hblank lexemes_written, lexemes_written_iff]

/-- A tree with one file in its root. -/
def oneFile (name : Text) : FileTree :=
  { root := .dir 0o755 0 [(Name.ofText name, .file 0)],
    files := [{ bytes := [], mode := 0o644, changed := 0 }] }

private theorem oneFile_list (name : Text) :
    (oneFile name).list (['/'] : Path) = .ok [(Name.ofText name, .file 0)] := by
  have hfind : (oneFile name).find true (['/'] : Path) = .ok (.entry [] (oneFile name).root) := by
    have hwalked : Place.walked (['/'] : Path) = [.root] := by decide
    have hwalk : (oneFile name).walk true FileTree.linkLimit [] [.root] =
        .ok (.entry [] (oneFile name).root) := by
      simp [FileTree.walk, FileTree.standing, oneFile, Node.isDir, Node.grants, Access.granted,
        FileTree.Trail.location]
    simp only [FileTree.find, hwalked, hwalk]
    rfl
  simp only [FileTree.list, FileTree.node, hfind]
  rfl

/-- The candidates for `cat a` in it. -/
private theorem oneFile_complete {name : Text} (hname : offered ['a'] name = true) :
    complete (oneFile name) none ['/'] [] "cat a".toList =
      ("cat ".toList, [offer ['a'] (Name.ofText name) (.file 0)]) := by
  have hcurrent : currentWord "cat a".toList = ⟨"cat ".toList, ['a'], false⟩ := by decide
  have hsplit : splitPath ['a'] = ([], ['a']) := by decide
  have hsearched : searchedDir none ['/'] [] = ['/'] := by decide
  rw [complete_later (by rw [hcurrent]), hcurrent]
  simp [openQuote?, typedPath, completePath, hsplit, hsearched, oneFile_list, hname, offer,
    typedDir]

/-- A name with a space in it is completed, and its line is read back. -/
theorem tokenize_complete_space :
    (currentWord "cat a".toList).isFirst = false ∧
    { display := "a b".toList, replacement := "\"a b\"".toList } ∈
      (complete (oneFile "a b".toList) none ['/'] [] "cat a".toList).2 ∧
    (complete (oneFile "a b".toList) none ['/'] [] "cat a".toList).1 <+: "cat a".toList ∧
    tokenize ((complete (oneFile "a b".toList) none ['/'] [] "cat a".toList).1 ++
        "\"a b\"".toList) = tokenize "cat ".toList ++ [.word "a b".toList] := by
  have hlater : (currentWord "cat a".toList).isFirst = false := by decide
  have hmem : { display := "a b".toList, replacement := "\"a b\"".toList } ∈
      (complete (oneFile "a b".toList) none ['/'] [] "cat a".toList).2 := by
    rw [oneFile_complete (by decide)]
    decide
  obtain ⟨hstart, entries, name, n, hlist, hentry, -, hread⟩ :=
    tokenize_complete_iff (oneFile "a b".toList) none ['/'] [] "cat a".toList hlater hmem
  have hroot : searchedDir none ['/'] (typedDir (currentWord "cat a".toList).word) = ['/'] := by
    decide
  rw [hroot, oneFile_list] at hlist
  obtain rfl := Except.ok.inj hlist
  obtain ⟨rfl, rfl⟩ := Prod.mk.inj (List.mem_singleton.mp hentry)
  refine ⟨hlater, hmem, hstart, hread.mpr ⟨?_, by decide, ?_⟩⟩
  · decide
  · decide

/-- A name with a sign of a redirection in it is completed to one. -/
theorem complete_redirection :
    complete (oneFile "a>b".toList) none ['/'] [] "cat a".toList =
        ("cat ".toList, [{ display := "a>b".toList, replacement := "a>b".toList }]) ∧
      tokenize ("cat ".toList ++ "a>b".toList) =
        [.word "cat".toList, .word ['a'], .operator .overwrite, .word ['b']] ∧
      tokenize ("cat ".toList ++ "a>b".toList) ≠
        tokenize "cat ".toList ++ [.word "a>b".toList] := by
  refine ⟨?_, by decide, by decide⟩
  rw [oneFile_complete (by decide)]
  decide

end LineShell.Completion

import LineShell.Proofs.Files.Relative
import LineShell.Session.Basic

/-! The directory that the prompt shows. Where it is not too long it is a path that can be typed,
and that leads back to the directory of the session. -/

namespace LineShell

namespace Prompt

open LineShell.Path

section Shorten

variable {t : Text}

theorem shorten_of_le {most : Nat} (h : t.length ≤ most) : shorten most t = t :=
  if_pos h

/-- A long text is shown by its two ends. -/
theorem shorten_of_lt (h : limit < t.length) :
    ∃ front middle back, t = front ++ middle ++ back ∧ front.length = 32 ∧ back.length = 31 ∧
      shorten limit t = front ++ '…' :: back := by
  rw [limit] at h
  refine ⟨t.take 32, (t.drop 32).take (t.length - 63), t.drop (t.length - 31), ?_, ?_, ?_, ?_⟩
  · have hdrop : t.drop (t.length - 31) = (t.drop 32).drop (t.length - 63) := by
      rw [List.drop_drop]
      congr 1
      omega
    rw [hdrop, List.append_assoc, List.take_append_drop, List.take_append_drop]
  · rw [List.length_take]
    omega
  · rw [List.length_drop]
    omega
  · exact if_neg (by rw [limit]; omega)

theorem length_shorten_le (t : Text) : (shorten limit t).length ≤ limit := by
  rcases Nat.lt_or_ge limit t.length with hlong | hshort
  · obtain ⟨front, middle, back, -, hfront, hback, hshown⟩ := shorten_of_lt hlong
    rw [hshown, List.length_append, List.length_cons, hfront, hback]
    decide
  · rwa [shorten_of_le hshort]

end Shorten

section Place

variable {home cwd : Path} (hhome : IsNormal home) (hcwd : IsNormal cwd)
include hhome hcwd

/-- A directory that is the home directory or below it is shown behind a tilde. -/
theorem exists_place_below (h : names home <+: names cwd) :
    ∃ rest, place (some home) cwd = '~' :: rest ∧ (rest = [] ∨ rest.head? = some '/') ∧
      names cwd = names home ++ names rest ∧
      isAbsolute (expandTilde (some home) ('~' :: rest)) = true ∧
      names (expandTilde (some home) ('~' :: rest)) = names cwd := by
  obtain ⟨rest, hrest, hnames, hrelative⟩ := exists_relativeTo? hhome hcwd h
  cases rest with
  | nil =>
    refine ⟨[], ?_, .inl rfl, hnames, hhome.absolute, ?_⟩
    · simp only [place, hrest]
    · rw [hnames, names_nil, List.append_nil]
      rfl
  | cons c rest =>
    refine ⟨'/' :: c :: rest, ?_, .inr rfl, ?_, isAbsolute_join_of_isAbsolute hhome.absolute, ?_⟩
    · simp only [place, hrest, join, hrelative]
      rfl
    · rw [hnames, names_cons_slash]
    · change names (join home (c :: rest)) = _
      rw [names_join_start hhome.absolute, start, hrelative, hnames]
      rfl

theorem place_elsewhere (h : ¬ names home <+: names cwd) : place (some home) cwd = cwd := by
  simp only [place, relativeTo?_eq_none hhome hcwd h]

/-- What is shown of a directory is expanded to a path with the names of the directory. -/
theorem expandTilde_place :
    isAbsolute (expandTilde (some home) (place (some home) cwd)) = true ∧
      names (expandTilde (some home) (place (some home) cwd)) = names cwd := by
  by_cases h : names home <+: names cwd
  · obtain ⟨rest, hplace, -, -, habs, hnames⟩ := exists_place_below hhome hcwd h
    rw [hplace]
    exact ⟨habs, hnames⟩
  · rw [place_elsewhere hhome hcwd h, expandTilde_of_isAbsolute hcwd.absolute]
    exact ⟨hcwd.absolute, rfl⟩

theorem place_ne_nil : place (some home) cwd ≠ [] := by
  by_cases h : names home <+: names cwd
  · obtain ⟨rest, hplace, -⟩ := exists_place_below hhome hcwd h
    rw [hplace]
    exact List.cons_ne_nil _ _
  · rw [place_elsewhere hhome hcwd h]
    exact ne_nil_of_isAbsolute hcwd.absolute

/-- What is shown of a directory leads where the path of the directory itself leads. -/
theorem resolve_place (elsewhere : Path) :
    resolve (some home) elsewhere (place (some home) cwd) =
      resolve (some home) elsewhere cwd := by
  obtain ⟨habs, hnames⟩ := expandTilde_place hhome hcwd
  have hself : expandTilde (some home) cwd = cwd := expandTilde_of_isAbsolute hcwd.absolute
  rw [resolve_of_expandTilde (place_ne_nil hhome hcwd) habs, hnames,
    resolve_of_expandTilde (ne_nil_of_isAbsolute hcwd.absolute) (by rw [hself, hcwd.absolute]),
    hself]

theorem head?_place_iff : (place (some home) cwd).head? = some '~' ↔ names home <+: names cwd := by
  by_cases h : names home <+: names cwd
  · obtain ⟨rest, hplace, -⟩ := exists_place_below hhome hcwd h
    rw [hplace]
    exact iff_of_true rfl h
  · rw [place_elsewhere hhome hcwd h]
    refine iff_of_false (fun htilde => ?_) h
    have habs := hcwd.absolute
    rw [isAbsolute, htilde] at habs
    exact absurd habs (by decide)

end Place

end Prompt

namespace Session

open LineShell.Path

/-- What a prompt shows of the directory of a session, the whole text of which is `full`. -/
structure ShowsPlace (s : Session) (around : Surroundings) (home : Path) (full shown : Text) :
    Prop where
  short : shown.length ≤ 64
  whole : full.length ≤ 64 → shown = full
  ends : 64 < full.length → ∃ front middle back, full = front ++ middle ++ back ∧
    front.length = 32 ∧ back.length = 31 ∧ shown = front ++ '…' :: back
  /-- The tilde is the home directory, which the names of the directory begin with. -/
  tilde : full.head? = some '~' ↔ names home <+: names s.cwd
  below : ∀ rest, full = '~' :: rest →
    (rest = [] ∨ rest.head? = some '/') ∧ names s.cwd = names home ++ names rest
  elsewhere : full.head? ≠ some '~' → full = s.cwd
  /-- The whole text leads back, to the letter where the directory is spelled tidily. -/
  back : components (s.resolve around full) = components s.cwd
  exact : IsTidy s.cwd → s.resolve around full = s.cwd

/-- Without colours, the prompt shows the directory of a session by a text that leads back to it,
with a tilde for the home directory, or by the two ends of such a text where it is too long. -/
theorem prompt_showsPlace {s : Session} {around : Surroundings} {home : Path}
    (hhome : around.home? = some home) (hnormal : IsNormal home)
    (hcwd : IsNormal s.cwd) (hplain : s.colours around = false) :
    ∃ shown, s.prompt around =
        '[' :: around.environment.user ++ '@' :: s.host around ++ "][" ++ shown ++ "]> " ∧
      ShowsPlace s around home (Prompt.place (some home) s.cwd) shown := by
  refine ⟨Prompt.shorten Prompt.limit (Prompt.place (some home) s.cwd), ?_, ?_⟩
  · rw [prompt, hplain, hhome]
    rfl
  · have hback : s.resolve around (Prompt.place (some home) s.cwd) = s.resolve around s.cwd := by
      rw [resolve, resolve, hhome, Prompt.resolve_place hnormal hcwd]
    refine ⟨Prompt.length_shorten_le _, Prompt.shorten_of_le, Prompt.shorten_of_lt,
      Prompt.head?_place_iff hnormal hcwd, fun rest hfull => ?_, fun hfull => ?_, ?_, ?_⟩
    · have hunder := (Prompt.head?_place_iff hnormal hcwd).mp (by rw [hfull]; rfl)
      obtain ⟨rest', hplace, hslash, hnames, -⟩ := Prompt.exists_place_below hnormal hcwd hunder
      obtain rfl : rest = rest' := (List.cons.inj (hfull.symm.trans hplace)).2
      exact ⟨hslash, hnames⟩
    · apply Prompt.place_elsewhere hnormal hcwd
      exact mt (Prompt.head?_place_iff hnormal hcwd).mpr hfull
    · rw [hback]
      exact components_resolve_of_isNormal hcwd
    · intro htidy
      rw [hback]
      exact resolve_of_isTidy htidy

/-- A session in a directory two names below the home directory `/home/user`. -/
def belowUser : Session :=
  { cwd := "/home/user/a b/~".toList, tree := { root := .dir 0o755 0 [], files := [] } }

def userAtBox : Surroundings :=
  { environment := [("HOME".toList, userHome), ("USER".toList, "me".toList),
      ("HOSTNAME".toList, "box".toList)],
    account := none, directory := ['/'], columns := none, clock := 0, zone := fun _ => 0,
    colours := false, limit := usualLimit, memory := usualMemory }

theorem prompt_showsPlace_belowUser :
    userAtBox.home? = some userHome ∧ IsNormal userHome ∧ IsNormal belowUser.cwd ∧
      belowUser.colours userAtBox = false ∧
      belowUser.prompt userAtBox = "[me@box][~/a b/~]> ".toList ∧
      belowUser.resolve userAtBox "~/a b/~".toList = belowUser.cwd := by
  have hhome : userAtBox.home? = some userHome := by decide
  have htidy : IsTidy belowUser.cwd :=
    .join (p := "/home/user/a b".toList) (n := "~".toList)
      (.join (n := "a b".toList) isTidy_userHome (by decide)) (by decide)
  obtain ⟨shown, hprompt, hshown⟩ := prompt_showsPlace hhome isTidy_userHome.isNormal
    htidy.isNormal (s := belowUser) rfl
  have hplace : Prompt.place (some userHome) belowUser.cwd = "~/a b/~".toList := by decide
  rw [hplace] at hshown
  rw [hshown.whole (by decide)] at hprompt
  exact ⟨hhome, isTidy_userHome.isNormal, htidy.isNormal, rfl, hprompt, hshown.exact htidy⟩

/-- A directory beside the home directory is not shown from there, though its text begins with
it. -/
example : Prompt.place (some userHome) "/home/username".toList = "/home/username".toList := by
  decide

end Session

end LineShell

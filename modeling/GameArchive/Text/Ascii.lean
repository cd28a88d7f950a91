/-
Case and comparison of names, where only the ASCII letters have case.
-/
namespace GameArchive.Text

/-- The text with the letters A to Z in lower case. -/
def asciiLower (text : String) : String := String.ofList (text.toList.map Char.toLower)

/-- Whether two texts differ at most in the case of ASCII letters. -/
def sameIgnoringCase (a b : String) : Bool :=
  a.toList.map Char.toLower = b.toList.map Char.toLower

/-- The text with every backslash turned into a slash. -/
def forwardSlashes (text : String) : String :=
  String.ofList (text.toList.map fun c => if c = '\\' then '/' else c)

/-- No backslash is left in such a text. -/
theorem notMem_forwardSlashes (text : String) :
    '\\' ∉ (forwardSlashes text).toList := by
  unfold forwardSlashes
  rw [String.toList_ofList]
  intro hmem
  obtain ⟨c, -, hc⟩ := List.mem_map.mp hmem
  split at hc
  next => cases hc
  next hne => exact hne hc

/-- A text without backslashes. -/
abbrev Slashed := { text : String // '\\' ∉ text.toList }

/-- The text with every backslash turned into a slash, and so without
any. -/
def slashed (text : String) : Slashed := ⟨forwardSlashes text, notMem_forwardSlashes text⟩

end GameArchive.Text

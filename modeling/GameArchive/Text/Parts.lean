/-
Texts in parts.

Splitting keeps the empty parts, so that a text with `n` separators has
`n + 1` parts, whatever lies between them. Main statement: there is always a
part, and none holds a separator.
-/
namespace GameArchive.Text

/-- The parts of a text between separators. -/
def parts (isSeparator : Char → Bool) : List Char → List (List Char)
  | [] => [[]]
  | c :: rest =>
    if isSeparator c then [] :: parts isSeparator rest
    else
      match parts isSeparator rest with
      | part :: more => (c :: part) :: more
      | [] => [[c]]

/-- An empty text has one part as well, which is empty. -/
theorem parts_ne_nil (isSeparator : Char → Bool) (text : List Char) :
    parts isSeparator text ≠ [] := by
  fun_induction parts isSeparator text <;> simp_all

/-- No part holds a separator. -/
theorem mem_parts (isSeparator : Char → Bool) (text part : List Char)
    (h : part ∈ parts isSeparator text) : ∀ c ∈ part, isSeparator c = false := by
  induction text generalizing part with
  | nil => simp_all [parts]
  | cons c rest ih =>
    by_cases hc : isSeparator c
    · simp only [parts, hc, if_true, List.mem_cons] at h
      rcases h with rfl | h
      · simp
      · exact ih part h
    · simp only [parts, hc, Bool.false_eq_true, if_false] at h
      split at h
      · rename_i head more hp
        rcases List.mem_cons.mp h with rfl | h
        · intro d hd
          rcases List.mem_cons.mp hd with rfl | hd
          · simpa using hc
          · exact ih head (by simp [hp]) d hd
        · exact ih part (by simp [hp, h])
      · rename_i hp
        exact absurd hp (parts_ne_nil _ _)

/-- The part after the last separator. -/
def lastPart (isSeparator : Char → Bool) (text : List Char) : List Char :=
  ((text.reverse).takeWhile fun c => !isSeparator c).reverse

/-- What follows the last slash of a path. -/
def fileName (path : String) : String :=
  String.ofList (lastPart (· == '/') path.toList)

/-- Whether a text contains another. -/
def contains (part : List Char) : List Char → Bool
  | [] => part.isEmpty
  | c :: rest => part.isPrefixOf (c :: rest) || contains part rest

/-- The lines of a text that end in CRLF; what follows the last one is
left out. -/
def crlfLines : (line : List Char) → List Char → List (List Char)
  | _, [] => []
  | line, '\r' :: '\n' :: rest => line.reverse :: crlfLines [] rest
  | line, c :: rest => crlfLines (c :: line) rest

end GameArchive.Text

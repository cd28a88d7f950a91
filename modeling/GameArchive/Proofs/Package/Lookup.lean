/-
Which entry a path asks for.

A path is looked up without its case, without the slashes in front of it and
with either kind of slash, by turning it into a form that is compared with
those of the entries. An entry has a path with slashes only, so the form of
that path is the form of all its spellings.
In a table whose paths have forms of their own each spelling leads to its
entry, and not only to the first that it fits.

Main statement: `find?_of_spelledBy`.
-/
import GameArchive.Package.Container
import Mathlib.Data.List.DropRight

namespace GameArchive.Package

open Text (forwardSlashes)

-- ============================================================== characters

/-- A character without its case, and a slash without its direction. -/
def loose (c : Char) : Char := (if c = '\\' then '/' else c).toLower

/-- Other characters than backslashes only lose their case. -/
theorem loose_of_ne {c : Char} (h : c ≠ '\\') : loose c = c.toLower := by
  rw [loose, if_neg h]

/-- No letter becomes a slash when it loses its case. -/
theorem toLower_beq_slash (c : Char) : (c.toLower == '/') = (c == '/') := by
  unfold Char.toLower
  split
  next hupper =>
    -- the capital letters, and what they become, lie above the slash
    have hlow : 65 ≤ c.toNat := hupper.1
    have hhigh : c.toNat ≤ 90 := hupper.2
    have hsum : (c.val + ('a'.val - 'A'.val)).toNat = c.toNat + 32 := by
      rw [UInt32.toNat_add]
      exact Nat.mod_eq_of_lt (Nat.lt_of_le_of_lt
        (Nat.add_le_add_right hhigh 32) (by decide))
    rw [beq_eq_false_iff_ne.mpr, beq_eq_false_iff_ne.mpr]
    · rintro rfl
      exact absurd hlow (by decide)
    · intro heq
      have hslash : (c.val + ('a'.val - 'A'.val)).toNat = 47 :=
        congrArg Char.toNat heq
      omega
  next => rfl

/-- Slashes have no case, so it does not matter when those at the beginning are
dropped. -/
theorem dropWhile_slash_toLower (text : List Char) :
    (text.map Char.toLower).dropWhile (· == '/')
      = (text.dropWhile (· == '/')).map Char.toLower := by
  have hsame : (fun c : Char => c == '/') ∘ Char.toLower
      = fun c => c == '/' := funext toLower_beq_slash
  rw [List.dropWhile_map, hsame]

-- =================================================================== paths

namespace Entry

/-- The path without the slashes at its beginning. -/
def innerPath (e : Entry) : List Char := e.path.toList.dropWhile (· == '/')

/-- The form in which the path is looked for. -/
def looseName (e : Entry) : List Char := e.innerPath.map Char.toLower

/-- A way to write the path: in any case, with either slash, and with any
slashes in front. -/
def SpelledBy (e : Entry) (path : String) : Prop :=
  ∃ slashes letters, path.toList = slashes ++ letters
    ∧ (∀ c ∈ slashes, c = '/' ∨ c = '\\')
    ∧ letters.map loose = e.innerPath.map loose

variable {e : Entry} {path : String}

/-- An entry answers to a path exactly if both are the same when spelled
loosely. -/
theorem answersTo_iff :
    e.answersTo path = true
      ↔ e.looseName = (lookupPath path).toList.map Char.toLower := by
  unfold answersTo Text.sameIgnoringCase
  rw [decide_eq_true_iff, String.toList_ofList]
  rfl

/-- The form of a path is that of its characters without case and
direction. -/
theorem toLower_lookupPath (path : String) :
    (lookupPath path).toList.map Char.toLower
      = (path.toList.map loose).dropWhile (· == '/') := by
  unfold lookupPath forwardSlashes
  rw [String.toList_ofList, String.toList_ofList, ← dropWhile_slash_toLower,
    List.map_map]
  rfl

/-- All spellings of a path have the same form. -/
theorem toLower_lookupPath_of_spelledBy (h : e.SpelledBy path) :
    (lookupPath path).toList.map Char.toLower = e.looseName := by
  obtain ⟨slashes, letters, hpath, hslashes, hletters⟩ := h
  have hfront : ∀ c ∈ slashes.map loose, (c == '/') = true := by
    intro c hc
    obtain ⟨d, hd, rfl⟩ := List.mem_map.mp hc
    rcases hslashes d hd with rfl | rfl <;> rfl
  have hinner : e.innerPath.map loose = e.innerPath.map Char.toLower := by
    refine List.map_congr_left fun c hc => loose_of_ne ?_
    rintro rfl
    exact e.slashed (List.dropWhile_sublist _ |>.subset hc)
  calc (lookupPath path).toList.map Char.toLower
      = (slashes.map loose ++ letters.map loose).dropWhile (· == '/') := by
        rw [toLower_lookupPath, hpath, List.map_append]
    _ = (e.innerPath.map Char.toLower).dropWhile (· == '/') := by
        rw [List.dropWhile_append_of_pos hfront, hletters, hinner]
    _ = e.looseName := by
        rw [dropWhile_slash_toLower, looseName, innerPath,
          List.dropWhile_idempotent]

end Entry

-- =================================================================== tables

namespace Container

/-- Where no two paths have the same form, each spelling of a path leads to
its entry. -/
theorem find?_of_spelledBy {c : Container}
    (hdistinct : c.entries.Pairwise fun e f => e.looseName ≠ f.looseName)
    {e : Entry} (he : e ∈ c.entries) {path : String}
    (hpath : e.SpelledBy path) : c.find? path = some e := by
  have hform := Entry.toLower_lookupPath_of_spelledBy hpath
  obtain ⟨before, after, hsplit⟩ := List.append_of_mem he
  refine List.find?_eq_some_iff_append.mpr
    ⟨Entry.answersTo_iff.mpr hform.symm, before, after, hsplit, ?_⟩
  intro f hf
  rw [hsplit] at hdistinct
  have hother := (List.pairwise_append.mp hdistinct).2.2 f hf e
    List.mem_cons_self
  rw [Bool.not_eq_true', ← Bool.not_eq_true, Entry.answersTo_iff, hform]
  exact hother

end Container
end GameArchive.Package

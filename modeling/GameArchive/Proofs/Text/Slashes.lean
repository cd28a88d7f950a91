/-
Paths with either slash.

Turning one kind of slash into the other replaces a byte by a byte: the
bytes of a path stay as many, and as printable. A writer that turns slashes
into backslashes and a reader that turns them back may therefore each do so
alone, and they may split a path at different slashes: the name of the file
is the same, because it has none.

Main statements: `forwardSlashes_backslashes`, `fileName_forwardSlashes`.
-/
import GameArchive.Text.Ascii
import GameArchive.Proofs.Text.Parts
import GameArchive.Proofs.Text.Utf8

namespace GameArchive.Text

/-- The text with every slash turned into a backslash. -/
def backslashes (text : String) : String :=
  String.ofList (text.toList.map fun c => if c = '/' then '\\' else c)

/-- Which slashes a text has is forgotten when they are all turned forward. -/
theorem forwardSlashes_backslashes (text : String) :
    forwardSlashes (backslashes text) = forwardSlashes text := by
  unfold forwardSlashes backslashes
  rw [String.toList_ofList, List.map_map]
  refine congrArg String.ofList (List.map_congr_left fun c _ => ?_)
  show (if (if c = '/' then '\\' else c) = '\\' then '/'
    else if c = '/' then '\\' else c) = if c = '\\' then '/' else c
  by_cases hslash : c = '/'
  · rw [hslash]
    rfl
  · rw [if_neg hslash]

-- ================================================================== bytes

/-- A slash is one byte, whichever it is. -/
theorem length_encode_backslashes (c : Char) :
    (String.utf8EncodeChar (if c = '/' then '\\' else c)).length
      = (String.utf8EncodeChar c).length := by
  by_cases hslash : c = '/'
  · rw [hslash]
    rfl
  · rw [if_neg hslash]

/-- A slash of either kind is one byte. -/
theorem length_ofString_backslashes (text : String) :
    (Bytes.ofString (backslashes text)).length
      = (Bytes.ofString text).length := by
  unfold backslashes
  rw [Bytes.ofString_eq, Bytes.ofString_eq, String.toList_ofList,
    List.flatMap_map]
  simp only [List.length_flatMap, length_encode_backslashes]

/-- What a backslash is allowed, a path is allowed with backslashes. -/
theorem all_ofString_backslashes {p : UInt8 → Bool} (hback : p 0x5C = true)
    {text : String}
    (h : (Bytes.ofString text).all p = true) :
    (Bytes.ofString (backslashes text)).all p = true := by
  unfold backslashes
  rw [Bytes.ofString_eq, List.all_flatMap] at *
  rw [String.toList_ofList, List.all_map]
  refine List.all_eq_true.mpr fun c hc => ?_
  have hbytes := List.all_eq_true.mp h c hc
  show (String.utf8EncodeChar (if c = '/' then '\\' else c)).all p = true
  by_cases hslash : c = '/'
  · rw [if_pos hslash]
    exact (Bool.and_true _).trans hback
  · rw [if_neg hslash]
    exact hbytes

-- ============================================================== last parts

/-- Cutting a text and changing its characters can be done in any order, if the
separators are those after the change. -/
theorem lastPart_map (isSeparator : Char → Bool) (f : Char → Char)
    (text : List Char) :
    lastPart isSeparator (text.map f)
      = (lastPart (fun c => isSeparator (f c)) text).map f := by
  unfold lastPart
  rw [← List.map_reverse, List.takeWhile_map, List.map_reverse]
  rfl

/-- The name of a file is what follows the last slash of either kind. -/
theorem fileName_forwardSlashes (path : String) :
    fileName (forwardSlashes path) = String.ofList
      (lastPart (fun c => c == '/' || c == '\\') path.toList) := by
  have hsplits : (fun c => (if c = '\\' then '/' else c) == '/')
      = fun c : Char => c == '/' || c == '\\' := by
    funext c
    by_cases hback : c = '\\'
    · rw [hback]
      rfl
    · rw [if_neg hback, beq_false_of_ne hback, Bool.or_false]
  unfold fileName forwardSlashes
  rw [String.toList_ofList, lastPart_map, hsplits]
  congr 1
  refine (List.map_congr_left fun c hc => ?_).trans (List.map_id _)
  have hnone := mem_lastPart hc
  rw [Bool.or_eq_false_iff] at hnone
  exact if_neg (ne_of_beq_false hnone.2)

end GameArchive.Text

/-
Lines that end in CRLF.

A text is cut in one way only into lines, each without a CRLF and followed
by one, and what follows the last of them. A carriage return or a newline
that stands alone belongs to its line, and one before a CRLF does so too:
the line that it ends has no CRLF in it.

Main statement: `crlfLines_iff_isCut`.
-/
import GameArchive.Text.Parts

namespace GameArchive.Text

/-- What ends a line. -/
def crlf : List Char := ['\r', '\n']

/-- A text as its lines, with their ends, and what follows the last end. -/
structure IsCut (text : List Char) (lines : List (List Char))
    (rest : List Char) : Prop where
  whole : text = lines.flatMap (· ++ crlf) ++ rest
  clear_lines : ∀ line ∈ lines, ¬ crlf <:+: line
  clear_rest : ¬ crlf <:+: rest

-- =============================================================== scanning

section

variable {c : Char} {text : List Char}

/-- A text begins with the end of a line if its first two characters are
that. -/
theorem crlf_prefix_cons_iff :
    crlf <+: c :: text ↔ c = '\r' ∧ ['\n'] <+: text := by
  unfold crlf
  rw [List.cons_prefix_cons]
  exact and_congr_left' eq_comm

/-- A character that does not begin the end of the line belongs to it. -/
theorem crlfLines_cons (h : ¬ crlf <+: c :: text) (line : List Char) :
    crlfLines line (c :: text) = crlfLines (c :: line) text := by
  rw [crlfLines]
  rintro rest rfl rfl
  exact h (List.prefix_append crlf rest)

/-- Before the end of a line, no other end begins. -/
theorem crlf_not_prefix_append {front : List Char}
    (h : ¬ crlf <+: c :: front) (rest : List Char) :
    ¬ crlf <+: c :: (front ++ (crlf ++ rest)) := by
  rw [crlf_prefix_cons_iff] at h ⊢
  rintro ⟨rfl, hnewline⟩
  cases front with
  | nil => simp [crlf] at hnewline
  | cons d front => exact h ⟨rfl, by simpa using hnewline⟩

/-- A line ends at its first end, and the lines go on behind it. -/
theorem crlfLines_append {front : List Char} (h : ¬ crlf <:+: front)
    (line rest : List Char) :
    crlfLines line (front ++ (crlf ++ rest))
      = (line.reverse ++ front) :: crlfLines [] rest := by
  induction front generalizing line with
  | nil => simp [crlf, crlfLines]
  | cons c front ih =>
      rw [List.infix_cons_iff, not_or] at h
      rw [List.cons_append, crlfLines_cons (crlf_not_prefix_append h.1 rest),
        ih h.2, List.reverse_cons, List.append_assoc]
      rfl

/-- What has no end of a line in it is not a line. -/
theorem crlfLines_eq_nil {rest : List Char} (h : ¬ crlf <:+: rest)
    (line : List Char) : crlfLines line rest = [] := by
  induction rest generalizing line with
  | nil => rfl
  | cons c rest ih =>
      rw [List.infix_cons_iff, not_or] at h
      rw [crlfLines_cons h.1, ih h.2]

end

-- =============================================================== cutting

/-- The lines that are read are those of any cut. -/
theorem crlfLines_of_isCut {text rest : List Char}
    {lines : List (List Char)} (h : IsCut text lines rest) :
    crlfLines [] text = lines := by
  obtain ⟨rfl, hlines, hrest⟩ := h
  induction lines with
  | nil => exact crlfLines_eq_nil hrest []
  | cons line lines ih =>
      rw [List.forall_mem_cons] at hlines
      rw [List.flatMap_cons, List.append_assoc, List.append_assoc,
        crlfLines_append hlines.1, ih hlines.2]
      rfl

theorem not_crlf_infix_nil : ¬ crlf <:+: [] := by
  decide

/-- A character in front of a piece without a CRLF makes none, or one that
begins with it. -/
theorem clear_cons_or {piece : List Char} (h : ¬ crlf <:+: piece)
    (c : Char) :
    ¬ crlf <:+: c :: piece
      ∨ ∃ piece', c :: piece = crlf ++ piece' ∧ ¬ crlf <:+: piece' := by
  by_cases hend : crlf <+: c :: piece
  · obtain ⟨piece', hpiece⟩ := hend
    refine .inr ⟨piece', hpiece.symm, fun hinfix => h ?_⟩
    obtain ⟨-, rfl⟩ := List.cons.inj hpiece
    exact List.infix_cons hinfix
  · exact .inl fun hinfix => (List.infix_cons_iff.mp hinfix).elim hend h

/-- A character in front of a text goes to its first line, or to what
follows the last if there is none, unless it makes an end there. -/
theorem exists_isCut_cons (c : Char) {text rest : List Char}
    {lines : List (List Char)} (h : IsCut text lines rest) :
    ∃ lines' rest', IsCut (c :: text) lines' rest' := by
  obtain ⟨rfl, hlines, hrest⟩ := h
  cases lines with
  | nil =>
      rcases clear_cons_or hrest c with hclear | ⟨rest', hend, hrest'⟩
      · exact ⟨[], c :: rest, rfl, hlines, hclear⟩
      · exact ⟨[[]], rest', hend,
          List.forall_mem_cons.mpr ⟨not_crlf_infix_nil, hlines⟩, hrest'⟩
  | cons line lines =>
      rw [List.forall_mem_cons] at hlines
      rcases clear_cons_or hlines.1 c with hclear | ⟨line', hend, hline'⟩
      · exact ⟨(c :: line) :: lines, rest, rfl,
          List.forall_mem_cons.mpr ⟨hclear, hlines.2⟩, hrest⟩
      · refine ⟨[] :: line' :: lines, rest, ?_, ?_, hrest⟩
        · show ((c :: line ++ crlf) ++ lines.flatMap (· ++ crlf)) ++ rest = _
          rw [hend]
          simp only [List.flatMap_cons, List.nil_append, List.append_assoc]
        · exact List.forall_mem_cons.mpr ⟨not_crlf_infix_nil,
            List.forall_mem_cons.mpr ⟨hline', hlines.2⟩⟩

/-- Every text can be cut. -/
theorem exists_isCut (text : List Char) :
    ∃ lines rest, IsCut text lines rest := by
  induction text with
  | nil => exact ⟨[], [], rfl, by simp, not_crlf_infix_nil⟩
  | cons c text ih =>
      obtain ⟨lines, rest, h⟩ := ih
      exact exists_isCut_cons c h

/-- What is scanned is the only cut there is. -/
theorem crlfLines_iff_isCut {text : List Char} {lines : List (List Char)} :
    crlfLines [] text = lines ↔ ∃ rest, IsCut text lines rest := by
  constructor
  · rintro rfl
    obtain ⟨lines, rest, h⟩ := exists_isCut text
    rw [crlfLines_of_isCut h]
    exact ⟨rest, h⟩
  · rintro ⟨rest, h⟩
    exact crlfLines_of_isCut h

/-- A text contains what stands somewhere in it. -/
theorem contains_iff {part text : List Char} :
    contains part text = true ↔ part <:+: text := by
  induction text with
  | nil => rw [contains, List.isEmpty_iff, List.infix_nil]
  | cons c text ih =>
      rw [contains, Bool.or_eq_true, List.isPrefixOf_iff_prefix, ih,
        List.infix_cons_iff]

end GameArchive.Text

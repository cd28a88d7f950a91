/-
What the parts of a text are.

A part is whatever stands in the text without a separator in it, between
the ends of the text or separators. The first part is told apart from the
others, which all have a separator before them: a character that is put in
front of the text goes to the first part, and leaves the others alone.

Main statements: `mem_parts_iff`, `parts_eq_concat`.
-/
import GameArchive.Text.Parts

namespace GameArchive.Text

variable {isSeparator : Char → Bool}

-- ==================================================== separators between

/-- A character that is no separator belongs to the part behind it. -/
theorem parts_cons_of_not {c : Char} (hc : isSeparator c = false)
    {text head : List Char} {more : List (List Char)}
    (h : parts isSeparator text = head :: more) :
    parts isSeparator (c :: text) = (c :: head) :: more := by
  simp [parts, hc, h]

/-- A separator ends a part, which is empty if nothing is before it. -/
theorem parts_cons_of_separator {c : Char} (hc : isSeparator c = true)
    (text : List Char) :
    parts isSeparator (c :: text) = [] :: parts isSeparator text := by
  simp [parts, hc]

/-- A separator divides the parts before it from those behind it. -/
theorem parts_append_separator {d : Char} (hd : isSeparator d = true)
    (before text : List Char) :
    parts isSeparator (before ++ d :: text)
      = parts isSeparator before ++ parts isSeparator text := by
  induction before with
  | nil => exact parts_cons_of_separator hd text
  | cons c before ih =>
      rw [List.cons_append]
      cases hc : isSeparator c with
      | true =>
          rw [parts_cons_of_separator hc, parts_cons_of_separator hc, ih,
            List.cons_append]
      | false =>
          obtain ⟨head, more, hparts⟩ :=
            List.exists_cons_of_ne_nil (parts_ne_nil isSeparator before)
          rw [parts_cons_of_not hc hparts]
          rw [hparts] at ih
          exact parts_cons_of_not hc ih

/-- What stands before the first separator is a part. -/
theorem parts_append {part after : List Char}
    (hpart : ∀ c ∈ part, isSeparator c = false)
    (hafter : ∀ d ∈ after.head?, isSeparator d = true) :
    ∃ more, parts isSeparator (part ++ after) = part :: more := by
  induction part with
  | nil =>
      cases after with
      | nil => exact ⟨[], rfl⟩
      | cons d after => exact ⟨_, parts_cons_of_separator (hafter d rfl) _⟩
  | cons c part ih =>
      obtain ⟨more, hmore⟩ :=
        ih fun d hd => hpart d (List.mem_cons_of_mem c hd)
      exact ⟨more, parts_cons_of_not (hpart c List.mem_cons_self) hmore⟩

-- ========================================================== one of them

/-- The first part stands at the beginning. -/
theorem first_part {text head : List Char} {more : List (List Char)}
    (h : parts isSeparator text = head :: more) :
    ∃ after, text = head ++ after
      ∧ ∀ d ∈ after.head?, isSeparator d = true := by
  induction text generalizing head more with
  | nil =>
      cases h
      exact ⟨[], rfl, by simp⟩
  | cons c text ih =>
      cases hc : isSeparator c with
      | true =>
          rw [parts_cons_of_separator hc] at h
          cases h
          refine ⟨c :: text, rfl, ?_⟩
          simpa using hc
      | false =>
          obtain ⟨head', more', hparts⟩ :=
            List.exists_cons_of_ne_nil (parts_ne_nil isSeparator text)
          obtain ⟨after, rfl, hafter⟩ := ih hparts
          rw [parts_cons_of_not hc hparts] at h
          cases h
          exact ⟨after, rfl, hafter⟩

/-- Every other part stands behind a separator. -/
theorem later_part {text head part : List Char} {more : List (List Char)}
    (h : parts isSeparator text = head :: more) (hpart : part ∈ more) :
    ∃ before d after, text = before ++ d :: (part ++ after)
      ∧ isSeparator d = true
      ∧ ∀ d ∈ after.head?, isSeparator d = true := by
  induction text generalizing head more with
  | nil =>
      cases h
      cases hpart
  | cons c text ih =>
      obtain ⟨head', more', hparts⟩ :=
        List.exists_cons_of_ne_nil (parts_ne_nil isSeparator text)
      cases hc : isSeparator c with
      | true =>
          rw [parts_cons_of_separator hc, hparts] at h
          cases h
          rcases List.mem_cons.mp hpart with rfl | hlater
          · obtain ⟨after, rfl, hafter⟩ := first_part hparts
            exact ⟨[], c, after, rfl, hc, hafter⟩
          · obtain ⟨before, d, after, rfl, hd, hafter⟩ := ih hparts hlater
            exact ⟨c :: before, d, after, rfl, hd, hafter⟩
      | false =>
          rw [parts_cons_of_not hc hparts] at h
          cases h
          obtain ⟨before, d, after, rfl, hd, hafter⟩ := ih hparts hpart
          exact ⟨c :: before, d, after, rfl, hd, hafter⟩

/-- A part stands somewhere in the text, has no separator in it, and has
separators or nothing on both sides. -/
theorem mem_parts_iff {text part : List Char} :
    part ∈ parts isSeparator text
      ↔ (∀ c ∈ part, isSeparator c = false)
        ∧ ∃ before after, text = before ++ (part ++ after)
          ∧ (∀ d ∈ before.getLast?, isSeparator d = true)
          ∧ ∀ d ∈ after.head?, isSeparator d = true := by
  constructor
  · intro hmem
    refine ⟨mem_parts isSeparator text part hmem, ?_⟩
    obtain ⟨head, more, hparts⟩ :=
      List.exists_cons_of_ne_nil (parts_ne_nil isSeparator text)
    rw [hparts] at hmem
    rcases List.mem_cons.mp hmem with rfl | hlater
    · obtain ⟨after, rfl, hafter⟩ := first_part hparts
      exact ⟨[], after, rfl, by simp, hafter⟩
    · obtain ⟨before, d, after, rfl, hd, hafter⟩ := later_part hparts hlater
      refine ⟨before ++ [d], after, by simp, ?_, hafter⟩
      simpa using hd
  · rintro ⟨hpart, before, after, rfl, hbefore, hafter⟩
    obtain ⟨more, hmore⟩ := parts_append hpart hafter
    rcases List.eq_nil_or_concat before with rfl | ⟨front, d, rfl⟩
    · simp [hmore]
    · have hd : isSeparator d = true := hbefore d (by simp)
      rw [List.concat_append, parts_append_separator hd, hmore]
      simp

-- ========================================================= the last one

/-- A text without separators is its only part. -/
theorem parts_of_forall {part : List Char}
    (h : ∀ c ∈ part, isSeparator c = false) :
    parts isSeparator part = [part] := by
  induction part with
  | nil => rfl
  | cons c part ih =>
      exact parts_cons_of_not (h c List.mem_cons_self)
        (ih fun d hd => h d (List.mem_cons_of_mem c hd))

/-- There is no separator in the last part. -/
theorem mem_lastPart {text : List Char} {c : Char}
    (hc : c ∈ lastPart isSeparator text) : isSeparator c = false := by
  have hkept := List.all_eq_true.mp
    (List.all_takeWhile (p := fun c => !isSeparator c) (l := text.reverse))
    c (List.mem_reverse.mp hc)
  simpa using hkept

/-- What stands before the last part ends with a separator. -/
theorem exists_front (isSeparator : Char → Bool) (text : List Char) :
    ∃ front, text = front ++ lastPart isSeparator text
      ∧ ∀ d ∈ front.getLast?, isSeparator d = true := by
  refine ⟨(text.reverse.dropWhile fun c => !isSeparator c).reverse, ?_, ?_⟩
  · rw [lastPart, ← List.reverse_append, List.takeWhile_append_dropWhile,
      List.reverse_reverse]
  · intro d hd
    rw [List.getLast?_reverse] at hd
    have hstops := List.head?_dropWhile_not (fun c => !isSeparator c)
      text.reverse
    rw [Option.mem_def.mp hd] at hstops
    simpa using hstops

/-- The last part begins behind the last separator. -/
theorem lastPart_append_separator {d : Char} (hd : isSeparator d = true)
    (before : List Char) {part : List Char}
    (hpart : ∀ c ∈ part, isSeparator c = false) :
    lastPart isSeparator (before ++ d :: part) = part := by
  have hkept : ∀ c ∈ part.reverse, (!isSeparator c) = true := by
    intro c hc
    rw [hpart c (List.mem_reverse.mp hc)]
    rfl
  unfold lastPart
  rw [List.reverse_append, List.reverse_cons, List.append_assoc,
    List.takeWhile_append_of_pos hkept, List.singleton_append,
    List.takeWhile_cons_of_neg (by simp [hd]), List.append_nil,
    List.reverse_reverse]

/-- There is always a last part. -/
theorem parts_eq_concat (isSeparator : Char → Bool) (text : List Char) :
    ∃ front, parts isSeparator text
      = front ++ [lastPart isSeparator text] := by
  have hlast : parts isSeparator (lastPart isSeparator text)
      = [lastPart isSeparator text] := parts_of_forall fun c => mem_lastPart
  obtain ⟨front, htext, hfront⟩ := exists_front isSeparator text
  rcases List.eq_nil_or_concat front with rfl | ⟨before, d, rfl⟩
  · refine ⟨[], ?_⟩
    rw [List.nil_append] at htext
    rwa [← htext] at hlast ⊢
  · refine ⟨parts isSeparator before, ?_⟩
    have hd : isSeparator d = true := hfront d (by simp)
    rw [List.concat_append] at htext
    conv => lhs; rw [htext, parts_append_separator hd, hlast]

end GameArchive.Text

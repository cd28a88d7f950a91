/-
What is left of a long path.

An end of a text, and a number of components from the beginning of a path,
are the longer the more of them is taken; so the first of the ends that fits
is the longest, and the components are taken for as long as they fit. All
components together, the name of the file included, have one byte more than
the path, which itself has too many: the search stops before it comes to the
name of the file, and even before the last folder.

Main statement: `abbreviate_fits`.
-/
import GameArchive.Listing.Abbreviation
import GameArchive.Proofs.Text.Parts

namespace GameArchive.Listing

open Text (byteLength byteLength_append byteLength_cons lastPart parts)

-- ==================================================================== ends

/-- The longest end of a text in so many bytes. -/
structure LongestEnd (limit : Nat) (text tail : List Char) : Prop where
  isEnd : tail <:+ text
  fits : byteLength tail ≤ limit
  longest : ∀ other, other <:+ text → byteLength other ≤ limit →
    other <:+ tail

/-- Dropping characters until the rest fits leaves the longest end that does. -/
theorem longestEnd_fittingEnd (limit : Nat) (text : List Char) :
    LongestEnd limit text (fittingEnd limit text) := by
  induction text with
  | nil => exact ⟨List.suffix_rfl, Nat.zero_le _, fun other h _ => h⟩
  | cons c text ih =>
      unfold fittingEnd
      by_cases hfits : byteLength (c :: text) ≤ limit
      · rw [if_pos hfits]
        exact ⟨List.suffix_rfl, hfits, fun other h _ => h⟩
      · rw [if_neg hfits]
        refine ⟨ih.isEnd.trans (List.suffix_cons c text), ih.fits, ?_⟩
        intro other hother hlimit
        rcases List.suffix_cons_iff.mp hother with rfl | hend
        · exact absurd hlimit hfits
        · exact ih.longest other hend hlimit

-- ============================================================== components

/-- Components with a slash behind each. -/
def slashed (components : List (List Char)) : List Char :=
  components.flatMap fun component => component ++ ['/']

theorem slashed_cons (component : List Char) (rest : List (List Char)) :
    slashed (component :: rest) = component ++ '/' :: slashed rest := by
  simp [slashed]

/-- Only the slash behind the last component is not in the path. -/
theorem slashed_parts (path : List Char) :
    slashed (parts (· == '/') path) = path ++ ['/'] := by
  induction path with
  | nil => rfl
  | cons c path ih =>
      obtain ⟨component, more, hparts⟩ :=
        List.exists_cons_of_ne_nil (Text.parts_ne_nil (· == '/') path)
      by_cases hc : c = '/'
      · have hfirst : parts (· == '/') (c :: path)
            = [] :: parts (· == '/') path := by simp [parts, hc]
        rw [hfirst, slashed_cons, ih, hc]
        rfl
      · have hfirst : parts (· == '/') (c :: path)
            = (c :: component) :: more := by simp [parts, hc, hparts]
        rw [hparts, slashed_cons] at ih
        rw [hfirst, slashed_cons, List.cons_append, ih, List.cons_append]

theorem slashed_append (front back : List (List Char)) :
    slashed (front ++ back) = slashed front ++ slashed back :=
  List.flatMap_append

/-- More components are not shorter. -/
theorem byteLength_slashed_le {front components : List (List Char)}
    (h : front <+: components) :
    byteLength (slashed front) ≤ byteLength (slashed components) := by
  obtain ⟨back, rfl⟩ := h
  rw [slashed_append, byteLength_append]
  omega

/-- As many components from the beginning as fit into so many bytes, each
with its slash. -/
structure LongestFront (budget : Nat) (components front : List (List Char)) :
    Prop where
  isFront : front <+: components
  fits : byteLength (slashed front) ≤ budget
  longest : ∀ other, other <+: components →
    byteLength (slashed other) ≤ budget → other <+: front

/-- Taking components while they fit into what is left of a budget gives the
longest front that fits into it. -/
theorem exists_fittingComponents (components : List (List Char)) :
    ∀ {budget used : Nat}, used ≤ budget →
      ∃ front, LongestFront (budget - used) components front
        ∧ fittingComponents budget used components = slashed front := by
  induction components with
  | nil =>
      intro budget used hused
      exact ⟨[], ⟨List.prefix_rfl, Nat.zero_le _, fun other h _ => h⟩, rfl⟩
  | cons component rest ih =>
      intro budget used hused
      have hlength : ∀ more, byteLength (slashed (component :: more))
          = byteLength component + 1 + byteLength (slashed more) := by
        intro more
        rw [slashed_cons, byteLength_append, byteLength_cons,
          show '/'.utf8Size = 1 from rfl]
        omega
      unfold fittingComponents
      dsimp only
      -- The first component takes its bytes off the budget, or is too long for
      -- it; then so is every longer front.
      by_cases hfull : budget < used + byteLength component + 1
      · rw [if_pos hfull]
        refine ⟨[], ⟨List.nil_prefix, Nat.zero_le _, ?_⟩, rfl⟩
        intro other hother hfits
        rcases List.prefix_cons_iff.mp hother with rfl | ⟨more, rfl, _⟩
        · exact List.prefix_rfl
        · rw [hlength] at hfits
          omega
      · rw [if_neg hfull]
        obtain ⟨front, hfront, htaken⟩ := ih (Nat.le_of_not_lt hfull)
        refine ⟨component :: front, ⟨?_, ?_, ?_⟩, ?_⟩
        · exact List.cons_prefix_cons.mpr ⟨rfl, hfront.isFront⟩
        · have hfits := hfront.fits
          rw [hlength]
          omega
        · intro other hother hfits
          rcases List.prefix_cons_iff.mp hother with rfl | ⟨more, rfl, hmore⟩
          · exact List.nil_prefix
          · rw [hlength] at hfits
            refine List.cons_prefix_cons.mpr ⟨rfl, ?_⟩
            exact hfront.longest more hmore (by omega)
        · rw [htaken, slashed_cons]

-- =================================================================== paths

/-- What a path is shortened to in so many bytes. -/
structure Shortened (limit : Nat) (path : String) (short : String) : Prop where
  bounded : short.utf8ByteSize ≤ limit
  whole : path.utf8ByteSize ≤ limit → short = path
  /-- There is room for no more than the end of the file name. -/
  nameOnly : limit < path.utf8ByteSize →
    limit ≤ byteLength (lastPart (· == '/') path.toList) + 4 →
      ∃ tail, short.toList = "...".toList ++ tail
        ∧ LongestEnd (limit - 3) (lastPart (· == '/') path.toList) tail
  /-- There is room for folders before the file name, but not for all. -/
  folders : limit < path.utf8ByteSize →
    byteLength (lastPart (· == '/') path.toList) + 4 < limit →
      ∃ front left, left ≠ []
        ∧ parts (· == '/') path.toList
          = front ++ left ++ [lastPart (· == '/') path.toList]
        ∧ LongestFront
          (limit - byteLength (lastPart (· == '/') path.toList) - 4)
          (parts (· == '/') path.toList) front
        ∧ short.toList = slashed front ++ "...".toList
          ++ '/' :: lastPart (· == '/') path.toList

/-- The components that fit are followed by another one before the name of
the file. -/
theorem exists_left {path : List Char} {budget : Nat}
    {front : List (List Char)}
    (hfront : LongestFront budget (parts (· == '/') path) front)
    (hroom : budget + byteLength (lastPart (· == '/') path)
      < byteLength path) :
    ∃ left, left ≠ [] ∧ parts (· == '/') path
      = front ++ left ++ [lastPart (· == '/') path] := by
  obtain ⟨folders, hparts⟩ := Text.parts_eq_concat (· == '/') path
  have hfolders : budget < byteLength (slashed folders) := by
    have hwhole := congrArg byteLength (slashed_parts path)
    have hnone : byteLength (slashed []) = 0 := rfl
    rw [hparts, slashed_append, slashed_cons] at hwhole
    simp only [byteLength_append, byteLength_cons, hnone,
      Text.byteLength_nil] at hwhole
    omega
  have hshort : ¬ folders <+: front := fun h =>
    absurd (byteLength_slashed_le h) (by have := hfront.fits; omega)
  have hisFront : front <+: folders := by
    rcases List.prefix_or_prefix_of_prefix hfront.isFront
        (hparts ▸ List.prefix_append folders _) with h | h
    · exact h
    · exact absurd h hshort
  obtain ⟨left, rfl⟩ := hisFront
  refine ⟨left, ?_, hparts⟩
  rintro rfl
  rw [List.append_nil] at hshort
  exact hshort List.prefix_rfl

section

variable {limit : Nat} {path : String}

/-- A path that fits is kept as it is. -/
theorem shortened_whole (hfits : path.utf8ByteSize ≤ limit) :
    Shortened limit path
      (String.ofList (abbreviate limit path.toList)) := by
  have hwhole : abbreviate limit path.toList = path.toList := by
    unfold abbreviate
    rw [Text.byteLength_toList, if_pos hfits]
  rw [hwhole, String.ofList_toList]
  exact ⟨hfits, fun _ => rfl, fun h => absurd hfits (Nat.not_le.mpr h),
    fun h => absurd hfits (Nat.not_le.mpr h)⟩

variable (hlong : limit < path.utf8ByteSize)

include hlong

/-- If there is no room for any folder, the name is cut to its end. -/
theorem shortened_nameOnly (hroom : 3 ≤ limit)
    (hname : limit ≤ byteLength (lastPart (· == '/') path.toList) + 4) :
    Shortened limit path
      (String.ofList (abbreviate limit path.toList)) := by
  have hcut := Nat.not_le.mpr hlong
  have hend := longestEnd_fittingEnd (limit - 3)
    (lastPart (· == '/') path.toList)
  have hshort : abbreviate limit path.toList
      = ellipsis ++ fittingEnd (limit - 3)
        (lastPart (· == '/') path.toList) := by
    unfold abbreviate
    rw [Text.byteLength_toList, if_neg hcut, if_pos hname]
  refine ⟨?_, fun h => absurd h hcut, fun _ _ => ⟨_, ?_, hend⟩,
    fun _ h => absurd hname (Nat.not_le.mpr h)⟩
  · have htail := hend.fits
    rw [← Text.byteLength_toList, String.toList_ofList, hshort,
      byteLength_append, show byteLength ellipsis = 3 from rfl]
    omega
  · rw [String.toList_ofList, hshort]
    rfl

/-- If there is room for more than the name, it is kept, and before it the
folders that fit. -/
theorem shortened_folders
    (hfolders : byteLength (lastPart (· == '/') path.toList) + 4 < limit) :
    Shortened limit path
      (String.ofList (abbreviate limit path.toList)) := by
  have hcut := Nat.not_le.mpr hlong
  obtain ⟨front, hfront, htaken⟩ := exists_fittingComponents
    (parts (· == '/') path.toList) (Nat.zero_le
      (limit - byteLength (lastPart (· == '/') path.toList) - 4))
  have hshort : abbreviate limit path.toList
      = slashed front
        ++ (ellipsis ++ '/' :: lastPart (· == '/') path.toList) := by
    unfold abbreviate
    dsimp only
    rw [Text.byteLength_toList, if_neg hcut,
      if_neg (Nat.not_le.mpr hfolders), htaken]
  obtain ⟨left, hleft, hparts⟩ := exists_left hfront (by
    rw [Text.byteLength_toList]
    omega)
  refine ⟨?_, fun h => absurd h hcut,
    fun _ h => absurd hfolders (Nat.not_lt.mpr h),
    fun _ _ => ⟨front, left, hleft, hparts, hfront, ?_⟩⟩
  · have hbudget := hfront.fits
    rw [← Text.byteLength_toList, String.toList_ofList, hshort,
      byteLength_append, byteLength_append, byteLength_cons,
      show byteLength ellipsis = 3 from rfl, show '/'.utf8Size = 1 from rfl]
    omega
  · rw [String.toList_ofList, hshort, List.append_assoc]
    rfl

end

/-- A path is shortened to its limit, if there is room for the ellipsis. -/
theorem abbreviate_fits (limit : Nat) (path : String) (hroom : 3 ≤ limit) :
    Shortened limit path
      (String.ofList (abbreviate limit path.toList)) := by
  rcases Nat.lt_or_ge limit path.utf8ByteSize with hlong | hfits
  · rcases Nat.lt_or_ge
        (byteLength (lastPart (· == '/') path.toList) + 4) limit with
      hfolders | hname
    · exact shortened_folders hlong hfolders
    · exact shortened_nameOnly hlong hroom hname
  · exact shortened_whole hfits

/-- There is room for a folder before the name, and then for the end of a
name whose last letters have two bytes. -/
theorem abbreviate_fits_twoBytes :
    (3 ≤ 11 ∧ Shortened 11 "a/bc/de/äö" "a/.../äö")
      ∧ (3 ≤ 8 ∧ Shortened 8 "a/bc/uäöü" "...öü") := by
  have hfolders := abbreviate_fits 11 "a/bc/de/äö" (by decide)
  have hname := abbreviate_fits 8 "a/bc/uäöü" (by decide)
  rw [show abbreviate 11 "a/bc/de/äö".toList = "a/.../äö".toList by decide,
    String.ofList_toList] at hfolders
  rw [show abbreviate 8 "a/bc/uäöü".toList = "...öü".toList by decide,
    String.ofList_toList] at hname
  exact ⟨⟨by decide, hfolders⟩, by decide, hname⟩

end GameArchive.Listing

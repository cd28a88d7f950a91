/-
How long texts are in UTF-8.

Limits and places in a text are counted in bytes, and a character takes
between one and four of them. Lengths add up, and none is counted twice, so
a text may be cut between any two characters.
-/
namespace GameArchive.Text

/-- The length of a text in UTF-8. -/
def byteLength : List Char → Nat
  | [] => 0
  | c :: rest => c.utf8Size + byteLength rest

@[simp] theorem byteLength_nil : byteLength [] = 0 := rfl

@[simp] theorem byteLength_cons (c : Char) (text : List Char) :
    byteLength (c :: text) = c.utf8Size + byteLength text := rfl

@[simp] theorem byteLength_append (front back : List Char) :
    byteLength (front ++ back) = byteLength front + byteLength back := by
  induction front with
  | nil => simp
  | cons c front ih =>
    simp only [List.cons_append, byteLength_cons, ih]
    omega

theorem byteLength_eq_length (text : List Char) :
    byteLength text = (text.flatMap String.utf8EncodeChar).length := by
  induction text with
  | nil => rfl
  | cons c text ih =>
    rw [byteLength_cons, ih, List.flatMap_cons, List.length_append,
      String.length_utf8EncodeChar]

/-- It is the number of bytes that stand for the text. -/
theorem byteLength_toList (text : String) :
    byteLength text.toList = text.utf8ByteSize := by
  show _ = text.toByteArray.size
  rw [byteLength_eq_length, ← String.utf8Encode_toList]
  simp [List.utf8Encode]

end GameArchive.Text

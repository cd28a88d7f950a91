/-
Byte strings.

Every format of this library is read from and written to a list of bytes.
A read never fails: a slice that runs past the end is as long as the data
allow, and a byte that is not there reads as zero. A reader therefore
checks the length it needs first, and says which error a short input is.
Main statement: cut into strides, data lose nothing.
-/
namespace GameArchive

/-- A byte string. -/
abbrev Bytes := List UInt8

namespace Bytes

-- ================================================================= parts

/-- The `length` bytes from `offset` on, or as many of them as there
are. -/
def slice (data : Bytes) (offset length : Nat) : Bytes :=
  (data.drop offset).take length

/-- The first `count` pieces of `size` bytes. -/
def pieces (size : Nat) : (count : Nat) → Bytes → List Bytes
  | 0, _ => []
  | count + 1, data => data.take size :: pieces size count (data.drop size)

/-- All pieces of `size` bytes; the last one may be shorter. -/
def strides (size : Nat) (data : Bytes) : List Bytes :=
  pieces size ((data.length + (size - 1)) / size) data

/-- The bytes before the first zero. -/
def beforeZero (data : Bytes) : Bytes := data.takeWhile (· != 0)

/-- Whether `data` begins with `head`. -/
def startsWith (data head : Bytes) : Bool := head.isPrefixOf data

-- ============================================================== building

/-- `count` zero bytes. -/
def zeros (count : Nat) : Bytes := List.replicate count 0

/-- The data followed by the fewest zero bytes that make its length a
multiple of `size`. -/
def padTo (size : Nat) (data : Bytes) : Bytes :=
  data ++ zeros ((size - data.length % size) % size)

/-- The data followed by zero bytes up to a length of `size`. -/
def fillTo (size : Nat) (data : Bytes) : Bytes := data ++ zeros (size - data.length)

/-- Byte by byte exclusive or, as long as the shorter of the two. -/
def xor (a b : Bytes) : Bytes := List.zipWith (· ^^^ ·) a b

/-- The UTF-8 form of a text. -/
def ofString (text : String) : Bytes := text.toUTF8.data.toList

-- ============================================================= cutting up

/-- Pieces that reach to the end are the data cut up. -/
theorem flatten_pieces (size count : Nat) (data : Bytes) (h : data.length ≤ count * size) :
    (pieces size count data).flatten = data := by
  induction count generalizing data with
  | zero => simp_all [pieces]
  | succ count ih =>
    have hrest : (data.drop size).length ≤ count * size := by
      rw [List.length_drop, Nat.succ_mul] at *
      omega
    simp [pieces, ih _ hrest, List.take_append_drop]

/-- Strides are the data cut up. -/
theorem flatten_strides (size : Nat) (data : Bytes) (h : 0 < size) :
    (strides size data).flatten = data := by
  refine flatten_pieces size _ data ?_
  have := Nat.lt_div_mul_add (a := data.length + (size - 1)) h
  omega

end Bytes
end GameArchive

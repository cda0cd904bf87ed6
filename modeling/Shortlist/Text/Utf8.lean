import Shortlist.Number.Power

/-!
# Ranges of code points in UTF-8

Characters take one to four bytes.  The code points of a range, written in UTF-8, are those byte strings whose bytes lie in certain ranges
of bytes.  `Utf8.sequences` lists these: a few sequences of byte ranges, which do not overlap and come
in increasing order.
-/

namespace Shortlist.Text.Utf8

/-- The number of bytes of a text. -/
def byteCount (cs : List Char) : Nat := cs.foldl (fun n c => n + c.utf8Size) 0

/-- The bytes from the first to the second. -/
abbrev ByteRange := Nat × Nat

/-! ## 1. Continuation bytes -/

/-- The continuation bytes that end in one of the numbers below 64 from `lo` to `hi`. -/
def continuation (lo hi : Nat) : ByteRange := (0x80 + lo, 0x80 + hi)

/-- How many numbers `count` continuation bytes can hold. -/
def capacity (count : Nat) : Nat := Number.twoTo (6 * count)

/-- Any continuation bytes, `count` of them. -/
def anyTail (count : Nat) : List ByteRange := List.replicate count (continuation 0 63)

/-- The sequences for the numbers from `lo` to `hi` in a leading byte, which adds `mark` to what it
holds, and `count` continuation bytes.  Numbers that agree in what the leading byte holds are
divided further; those in between may have any continuation bytes. -/
def split (mark : Nat) : (count : Nat) → (lo hi : Nat) → List (List ByteRange)
  | 0, lo, hi => [[(mark + lo, mark + hi)]]
  | count + 1, lo, hi =>
    let size := capacity (count + 1)
    let (a, b) := (lo / size, hi / size)
    let (low, high) := (lo % size, hi % size)
    let under := fun first rest => (mark + first, mark + first) :: rest
    if a == b then (split 0x80 count low high).map (under a)
    else
      let (first, front) :=
        if low == 0 then (a, []) else (a + 1, (split 0x80 count low (size - 1)).map (under a))
      let (last, back) :=
        if high == size - 1 then (b + 1, []) else (b, (split 0x80 count 0 high).map (under b))
      let middle :=
        if first < last then [(mark + first, mark + (last - 1)) :: anyTail (count + 1)] else []
      front ++ middle ++ back

/-! ## 2. Code points -/

/-- Code points that take equally many bytes: the number of continuation bytes, the mark of the
leading byte, and the first and the last code point. -/
def blocks : List (Nat × Nat × Nat × Nat) :=
  [ (0, 0x00, 0x0, 0x7F), (1, 0xC0, 0x80, 0x7FF), (2, 0xE0, 0x800, 0xD7FF),
    (2, 0xE0, 0xE000, 0xFFFF), (3, 0xF0, 0x10000, 0x10FFFF) ]

/-- The sequences of byte ranges for the characters from `lo` to `hi`. -/
def sequences (lo hi : Nat) : List (List ByteRange) :=
  blocks.flatMap fun (count, mark, first, last) =>
    if max lo first ≤ min hi last then split mark count (max lo first) (min hi last) else []

end Shortlist.Text.Utf8

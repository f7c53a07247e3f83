import FragmentMerge.Pattern.Ranges

/-! Characters as rows of byte ranges. A row stands for the byte sequences that take one byte from each
of its ranges. The rows of a set give the UTF-8 forms of its characters, in order. -/

namespace FragmentMerge.Pattern

abbrev ByteRow := List (Nat × Nat)

def utf8 (n : Nat) : List Nat :=
  if n < 0x80 then [n]
  else if n < 0x800 then [0xC0 + n / 64, 0x80 + n % 64]
  else if n < 0x10000 then [0xE0 + n / 4096, 0x80 + n / 64 % 64, 0x80 + n % 64]
  else [0xF0 + n / 262144, 0x80 + n / 4096 % 64, 0x80 + n / 64 % 64, 0x80 + n % 64]

/-- The last code points of the forms of one, two and three bytes. -/
def lastOfWidths : List Nat := [0x7F, 0x7FF, 0xFFFF]

/-- Where a range lies in several blocks of a size and does not fill all of them, the start of a block
that parts it. -/
def blockCut? (a b size : Nat) : Option Nat :=
  if a / size = b / size then none
  else if a % size ≠ 0 then some (a / size * size + size)
  else if b % size ≠ size - 1 then some (b / size * size)
  else none

/-- Where a range that is more than one row is parted: the end of its first part and the start of its
second one. The code points of a row have forms of one length, and bytes after one that varies take
every value. -/
def cut? (a b : Nat) : Option (Nat × Nat) :=
  if a < 0xE000 && 0xD7FF < b then some (0xD7FF, 0xE000)
  else match lastOfWidths.find? fun m => a ≤ m && m < b with
    | some m => some (m, m + 1)
    | none =>
      if b < 0x80 then none
      else ([64, 4096, 262144].findSome? (blockCut? a b)).map fun m => (m - 1, m)

/-- The rows of a range; no range is parted more than `n` times over. -/
def rowsWithin : Nat → Nat → Nat → List ByteRow
  | 0, _, _ => []
  | n + 1, a, b =>
    match cut? a b with
    | some (c, d) => rowsWithin n a c ++ rowsWithin n d b
    | none => if a ≤ b then [(utf8 a).zip (utf8 b)] else []

def Ranges.rows (rs : Ranges) : List ByteRow := rs.flatMap fun r => rowsWithin 16 r.1 r.2

end FragmentMerge.Pattern

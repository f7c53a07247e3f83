/-! Sets of characters as lists of ranges of code points, both ends included. The ranges of a set are
sorted, and between two of them at least one code point is missing. A run of a written set gives how many
code points it leaves out after the one before it and, after a plus sign, how many it takes when that is
more than one; numbers have hexadecimal digits. -/

namespace FragmentMerge.Pattern

abbrev Ranges := List (Nat × Nat)

namespace Ranges

def lastCodePoint : Nat := 0x10FFFF

def hasCode : Ranges → Nat → Bool
  | [], _ => false
  | r :: rs, n => if n < r.1 then false else n ≤ r.2 || hasCode rs n

def has (rs : Ranges) (c : Char) : Bool := hasCode rs c.toNat

def full : Ranges := [(0, lastCodePoint)]

def single (c : Char) : Ranges := [(c.toNat, c.toNat)]

def single? : Ranges → Option Char
  | [(a, b)] => if a = b then some (Char.ofNat a) else none
  | _ => none

/-- Joins a range with those after it that overlap or touch; the ranges come sorted. -/
def joinFrom (r : Nat × Nat) : Ranges → Ranges
  | [] => [r]
  | q :: qs => if q.1 ≤ r.2 + 1 then joinFrom (r.1, max r.2 q.2) qs else r :: joinFrom q qs

def join : Ranges → Ranges
  | [] => []
  | r :: rs => joinFrom r rs

def normal (rs : Ranges) : Ranges := join (rs.mergeSort fun a b => a.1 ≤ b.1)

/-- The next code point of a character; those of surrogates are passed over. -/
def after (n : Nat) : Nat := if n = 0xD7FF then 0xE000 else n + 1

def before (n : Nat) : Nat := if n = 0xE000 then 0xD7FF else n - 1

/-- The gaps that follow `last`. Where two ranges meet at the surrogates the gap is empty, and its
two neighbours stand for it. -/
def gapsAfter (last : Nat) : Ranges → Ranges
  | [] => if last < lastCodePoint then [(after last, lastCodePoint)] else []
  | r :: rs =>
    (min (after last) (before r.1), max (after last) (before r.1)) :: gapsAfter r.2 rs

def complement : Ranges → Ranges
  | [] => full
  | r :: rs => if 0 < r.1 then (0, before r.1) :: gapsAfter r.2 rs else gapsAfter r.2 rs

def union (a b : Ranges) : Ranges := normal (a ++ b)

def inter : Ranges → Ranges → Ranges
  | [], _ => []
  | _, [] => []
  | a :: as, b :: bs =>
    let rest := if a.2 < b.2 then inter as (b :: bs) else inter (a :: as) bs
    if max a.1 b.1 ≤ min a.2 b.2 then (max a.1 b.1, min a.2 b.2) :: rest else rest
termination_by as bs => as.length + bs.length

def diff : Ranges → Ranges → Ranges
  | [], _ => []
  | as, [] => as
  | a :: as, b :: bs =>
    if a.2 < b.1 then a :: diff as (b :: bs)
    else if b.2 < a.1 then diff (a :: as) bs
    else
      let rest := if b.2 < a.2 then diff ((after b.2, a.2) :: as) bs else diff as (b :: bs)
      if a.1 < b.1 then (a.1, before b.1) :: rest else rest
termination_by as bs => as.length + bs.length

def symmDiff (a b : Ranges) : Ranges := diff (union a b) (inter a b)

def isAscii (rs : Ranges) : Bool := rs.all fun r => r.2 < 0x80

def hexadecimal (ds : List Char) : Nat :=
  ds.foldl (fun n c => n * 16 + (if c.isDigit then c.toNat - 48 else c.toNat - 87)) 0

/-- Adds a run to a set whose ranges come last first. -/
def addRun (rs : Ranges) (run : List Char) : Ranges :=
  let start := (rs.head?.map (·.2 + 1)).getD 0
  match run.splitOn '+' with
  | [skipped] => (start + hexadecimal skipped, start + hexadecimal skipped) :: rs
  | [skipped, taken] =>
    let first := start + hexadecimal skipped
    (first, first + hexadecimal taken - 1) :: rs
  | _ => rs

def ofRuns (lines : List String) : Ranges :=
  (lines.foldl (fun rs line => (line.toList.splitOn ' ').foldl addRun rs) []).reverse

end Ranges

end FragmentMerge.Pattern

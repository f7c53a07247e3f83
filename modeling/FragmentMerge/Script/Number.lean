/-! Whole numbers as a shell reads them. A number has 64 bits; what is larger is cut to the largest
one, and sums that are too large start again from the other end. -/

namespace FragmentMerge.Script

def numberLimit : Int := 9223372036854775807

/-- The number of 64 bits that stands for a number of any size. -/
def wrapped (n : Int) : Int := (n + numberLimit + 1) % (2 * numberLimit + 2) - numberLimit - 1

def isSpace (c : Char) : Bool := c == ' ' || ('\t' ≤ c && c ≤ '\r')

def digit? (base : Nat) (c : Char) : Option Nat :=
  let n :=
    if c.isDigit then c.toNat - 48
    else if 'a' ≤ c && c ≤ 'z' then c.toNat - 87
    else if 'A' ≤ c && c ≤ 'Z' then c.toNat - 55
    else base
  if n < base then some n else none

def digits (base : Nat) (n : Nat) : List Char → Nat × List Char
  | [] => (n, [])
  | c :: s =>
    match digit? base c with
    | some d => digits base (n * base + d) s
    | none => (n, c :: s)

/-- The base that the first characters of a number tell, and its digits. -/
def baseOf : List Char → Nat × List Char
  | '0' :: x :: d :: s =>
    if (x == 'x' || x == 'X') && (digit? 16 d).isSome then (16, d :: s) else (8, '0' :: x :: d :: s)
  | '0' :: s => (8, '0' :: s)
  | s => (10, s)

/-- A number as read: its value, whether it was cut, and what follows it. -/
structure Numeral where
  value : Int
  isCut : Bool
  rest : List Char

/-- Reads a number with its sign, after blanks; none if there is no digit. -/
def numeral? (anyBase : Bool) (s : List Char) : Option Numeral :=
  let s := s.dropWhile isSpace
  let (negative, s) := match s with
    | '-' :: s => (true, s)
    | '+' :: s => (false, s)
    | s => (false, s)
  let (base, s) := if anyBase then baseOf s else (10, s)
  match s with
  | [] => none
  | c :: _ =>
    if (digit? base c).isNone then none
    else
      let (n, rest) := digits base 0 s
      let value : Int := if negative then -(n : Int) else n
      let cut := max (-numberLimit - 1) (min numberLimit value)
      some ⟨cut, cut != value, rest⟩

def integer? (s : String) : Option Int := do
  let r ← numeral? false s.toList
  if r.isCut || !r.rest.all isSpace then none else some r.value

def natural? (s : String) : Option Nat := do
  let n ← integer? s
  if 0 ≤ n && n ≤ 2147483647 then some n.toNat else none

end FragmentMerge.Script

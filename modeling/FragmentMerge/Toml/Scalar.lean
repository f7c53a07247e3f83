import FragmentMerge.Data.Tree
import FragmentMerge.Text.Basic

/-! TOML numbers, dates and strings. A number or date is read from its whole word, because no
character of a word can follow a value. -/

namespace FragmentMerge.Toml

def isDigit (c : Char) : Bool := '0' ≤ c && c ≤ '9'

def digitValue (c : Char) : Nat :=
  if isDigit c then c.toNat - 48
  else if 'a' ≤ c && c ≤ 'f' then c.toNat - 87
  else if 'A' ≤ c && c ≤ 'F' then c.toNat - 55
  else 16

/-- The number that digits of a base write; none for no digits, or a digit beyond the base. -/
def number? (base : Nat) (ds : List Char) : Option Nat :=
  if ds.isEmpty || ds.any (fun c => base ≤ digitValue c) then none
  else some (ds.foldl (fun n c => n * base + digitValue c) 0)

/-- The digits of a group in which single underscores stand between digits. -/
def grouped? (base : Nat) (s : List Char) : Option (List Char) :=
  let parts := s.splitOn '_'
  if parts.any fun p => p.isEmpty || p.any (fun c => base ≤ digitValue c) then none
  else some parts.flatten

def inRange (i : Int) : Option Int := if -(Nat.pow 2 63) ≤ i && i < Nat.pow 2 63 then some i else none

def decimal? (s : List Char) : Option (List Char) :=
  match grouped? 10 s with
  | some ('0' :: _ :: _) => none
  | r => r

def splitSign : List Char → Bool × List Char
  | '-' :: s => (true, s)
  | '+' :: s => (false, s)
  | s => (false, s)

def integer? (w : List Char) : Option Int :=
  match w with
  | '0' :: 'x' :: s => (grouped? 16 s).bind (number? 16) |>.bind fun n => inRange n
  | '0' :: 'o' :: s => (grouped? 8 s).bind (number? 8) |>.bind fun n => inRange n
  | '0' :: 'b' :: s => (grouped? 2 s).bind (number? 2) |>.bind fun n => inRange n
  | _ =>
    let (neg, s) := splitSign w
    (decimal? s).bind (number? 10) |>.bind fun n => inRange (if neg then -n else n)

def exponent? (s : List Char) : Option Int :=
  let (neg, ds) := splitSign s
  (grouped? 10 ds).bind (number? 10) |>.map fun n => if neg then -n else n

/-- Half a step above the largest double: from here on a number rounds to none. -/
def floatLimit : Nat := Nat.pow 2 1024 - Nat.pow 2 970

def overflows (m : Nat) (e : Int) : Bool :=
  let size := (Nat.toDigits 10 m).length + e
  if m = 0 || size < 308 then false
  else if size > 310 then true
  else if e < 0 then floatLimit * Nat.pow 10 e.natAbs ≤ m
  else floatLimit ≤ m * Nat.pow 10 e.natAbs

def isFloat (w : List Char) : Bool :=
  let (neg, s) := splitSign w
  if s = ['i', 'n', 'f'] || s = ['n', 'a', 'n'] then true
  else
    let mantissa := s.takeWhile fun c => c != 'e' && c != 'E'
    let tail := s.drop mantissa.length
    let whole := mantissa.takeWhile (· != '.')
    let frac := mantissa.drop whole.length
    let fracDigits := if frac.isEmpty then some [] else grouped? 10 (frac.drop 1)
    let exp := if tail.isEmpty then some 0 else exponent? (tail.drop 1)
    match decimal? whole, fracDigits, exp with
    | some w, some f, some e =>
      (!frac.isEmpty || !tail.isEmpty) &&
        (neg || !overflows ((number? 10 (w ++ f)).getD 0) (e - f.length))
    | _, _, _ => false

/-- The number in a field of exactly `n` digits, and what follows it. -/
def field? (n lo hi : Nat) (s : List Char) : Option (Nat × List Char) :=
  let ds := s.take n
  if ds.length = n && ds.all isDigit then
    (number? 10 ds).bind fun v => if lo ≤ v && v ≤ hi then some (v, s.drop n) else none
  else none

def expect? (c : Char) : List Char → Option (List Char)
  | d :: s => if c = d then some s else none
  | [] => none

def isLeap (y : Nat) : Bool := (y % 4 == 0 && y % 100 != 0) || y % 400 == 0

def daysIn (y m : Nat) : Nat :=
  if m == 2 then (if isLeap y then 29 else 28)
  else if m == 4 || m == 6 || m == 9 || m == 11 then 30
  else 31

def padded (width n : Nat) : List Char :=
  let ds := Nat.toDigits 10 n
  List.replicate (width - ds.length) '0' ++ ds

def date? (s : List Char) : Option (List Char × List Char) := do
  let (y, s) ← field? 4 0 9999 s
  let s ← expect? '-' s
  let (m, s) ← field? 2 1 12 s
  let s ← expect? '-' s
  let (d, s) ← field? 2 1 31 s
  if d ≤ daysIn y m then
    some (padded 4 y ++ '-' :: padded 2 m ++ '-' :: padded 2 d, s)
  else none

/-- A time of day, in its written form: nine places of the second count, without the zeros that
end them. -/
def time? (s : List Char) : Option (List Char × List Char) := do
  let (h, s) ← field? 2 0 23 s
  let s ← expect? ':' s
  let (m, s) ← field? 2 0 59 s
  let s ← expect? ':' s
  let (sec, s) ← field? 2 0 60 s
  let written := padded 2 h ++ ':' :: padded 2 m ++ ':' :: padded 2 sec
  match s with
  | '.' :: t =>
    let ds := t.takeWhile isDigit
    if ds.isEmpty then none
    else
      let kept := ((ds.take 9).reverse.dropWhile (· == '0')).reverse
      some (if kept.isEmpty then written else written ++ '.' :: kept, t.drop ds.length)
  | _ => some (written, s)

def offset? : List Char → Option (List Char × List Char)
  | 'Z' :: s => some (['Z'], s)
  | 'z' :: s => some (['Z'], s)
  | c :: s =>
    if c = '+' || c = '-' then do
      let (h, s) ← field? 2 0 23 s
      let s ← expect? ':' s
      let (m, s) ← field? 2 0 59 s
      let sign := if c = '-' && h + m ≠ 0 then '-' else '+'
      some (sign :: padded 2 h ++ ':' :: padded 2 m, s)
    else none
  | [] => none

def zoned? (s : List Char) : Option (List Char × List Char) :=
  match time? s with
  | none => none
  | some (t, r) =>
    match offset? r with
    | some (o, r) => some (t ++ o, r)
    | none => some (t, r)

def moment? (s : List Char) : Option (List Char × List Char) :=
  match date? s with
  | some (d, c :: r) =>
    if c = 'T' || c = 't' || c = ' ' then
      match zoned? r with
      | some (t, r) => some (d ++ 'T' :: t, r)
      | none => some (d, c :: r)
    else some (d, c :: r)
  | some (d, []) => some (d, [])
  | none => time? s

def isWordChar (c : Char) : Bool :=
  c.isAlphanum || c == '+' || c == '-' || c == '.' || c == '_' || c == ':'

def endsWord : List Char → Bool
  | [] => true
  | c :: _ => !isWordChar c

def scalar? (s : List Char) : Option (Tree × List Char) :=
  let w := s.takeWhile isWordChar
  let r := s.drop w.length
  if w = "true".toList then some (.bool true, r)
  else if w = "false".toList then some (.bool false, r)
  else match moment? s with
  | some (d, r) => if endsWord r then some (.date (String.ofList d), r) else none
  | none =>
    match integer? w with
    | some i => some (.int i, r)
    | none => if isFloat w then some (.float (String.ofList w), r) else none

def isPrintable (c : Char) : Bool :=
  c == '\t' || (0x20 ≤ c.toNat && c.toNat ≤ 0x7E) || 0x80 ≤ c.toNat

def newline? : List Char → Option (List Char)
  | '\n' :: s => some s
  | '\r' :: '\n' :: s => some s
  | _ => none

def isSpace (c : Char) : Bool := c == ' ' || c == '\t'

def spaces (s : List Char) : List Char := s.dropWhile isSpace

def codePoint? (ds : List Char) : Option Char :=
  (number? 16 ds).bind fun n =>
    if n < 0xD800 || (0xDFFF < n && n ≤ 0x10FFFF) then some (Char.ofNat n) else none

def escape? : List Char → Option (Char × List Char)
  | 'b' :: s => some ('\x08', s)
  | 't' :: s => some ('\t', s)
  | 'n' :: s => some ('\n', s)
  | 'f' :: s => some ('\x0c', s)
  | 'r' :: s => some ('\r', s)
  | '"' :: s => some ('"', s)
  | '\\' :: s => some ('\\', s)
  | 'u' :: s => if s.length < 4 then none else (codePoint? (s.take 4)).map (·, s.drop 4)
  | 'U' :: s => if s.length < 8 then none else (codePoint? (s.take 8)).map (·, s.drop 8)
  | _ => none

def basic? : Nat → List Char → Option (List Char × List Char)
  | 0, _ => none
  | _, [] => none
  | n + 1, c :: s =>
    if c = '"' then some ([], s)
    else if c = '\\' then
      match escape? s with
      | none => none
      | some (e, s) => (basic? n s).map fun (t, r) => (e :: t, r)
    else if isPrintable c then (basic? n s).map fun (t, r) => (c :: t, r)
    else none

def literal? : List Char → Option (List Char × List Char)
  | [] => none
  | c :: s =>
    if c = '\'' then some ([], s)
    else if isPrintable c then (literal? s).map fun (t, r) => (c :: t, r)
    else none

/-- Three quotes close a long string; up to two more before them belong to it. -/
def closing? (q : Char) (s : List Char) : Option (List Char × List Char) :=
  let n := (s.takeWhile (· == q)).length
  if n < 3 then none else some (List.replicate (min (n - 3) 2) q, s.drop (min n 5))

def blanksAndLines : Nat → List Char → List Char
  | 0, s => s
  | n + 1, s =>
    match newline? (spaces s) with
    | some r => blanksAndLines n r
    | none => spaces s

def longBasic? : Nat → List Char → Option (List Char × List Char)
  | 0, _ => none
  | n + 1, s =>
    match closing? '"' s with
    | some r => some r
    | none =>
      match newline? s with
      | some r => (longBasic? n r).map fun (t, r) => ('\n' :: t, r)
      | none =>
        match s with
        | [] => none
        | '\\' :: s =>
          match newline? (spaces s) with
          | some r => longBasic? n (blanksAndLines r.length r)
          | none =>
            match escape? s with
            | none => none
            | some (e, s) => (longBasic? n s).map fun (t, r) => (e :: t, r)
        | c :: s =>
          if isPrintable c then (longBasic? n s).map fun (t, r) => (c :: t, r) else none

def longLiteral? : Nat → List Char → Option (List Char × List Char)
  | 0, _ => none
  | n + 1, s =>
    match closing? '\'' s with
    | some r => some r
    | none =>
      match newline? s with
      | some r => (longLiteral? n r).map fun (t, r) => ('\n' :: t, r)
      | none =>
        match s with
        | [] => none
        | c :: s =>
          if isPrintable c then (longLiteral? n s).map fun (t, r) => (c :: t, r) else none

def afterNewline (s : List Char) : List Char := (newline? s).getD s

def string? (s : List Char) : Option (List Char × List Char) :=
  let n := s.length + 1
  match s with
  | '"' :: '"' :: '"' :: s => longBasic? n (afterNewline s)
  | '\'' :: '\'' :: '\'' :: s => longLiteral? n (afterNewline s)
  | '"' :: s => basic? n s
  | '\'' :: s => literal? s
  | _ => none

end FragmentMerge.Toml

import FragmentMerge.Script.Format

/-! The values of `awk`: numbers, texts, and texts from outside that count as numbers too. -/

namespace FragmentMerge.Script.Awk

inductive Value where
  | unset
  | number (x : Float)
  | text (s : String)
  /-- A text from outside that looks like a number. -/
  | numeral (s : String) (x : Float)
  deriving Inhabited

/-- The number that stands at the start of a text, and what follows it. -/
def leadingNumber? (s : List Char) : Option (Float × List Char) :=
  let s := s.dropWhile isSpace
  let (negative, s) := match s with
    | '-' :: s => (true, s)
    | '+' :: s => (false, s)
    | s => (false, s)
  let word := String.ofList ((s.take 3).map Char.toLower)
  let found := match s with
    | '0' :: x :: d :: r =>
      if (x == 'x' || x == 'X') && (digit? 16 d).isSome then
        let (n, rest) := digits 16 0 (d :: r)
        some (Float.ofNat n, rest)
      else decimal? s
    | s =>
      if word == "inf" then
        let long := String.ofList ((s.take 8).map Char.toLower) == "infinity"
        some (1 / 0, s.drop (if long then 8 else 3))
      else if word == "nan" then some (0 / 0, s.drop 3)
      else decimal? s
  found.map fun (x, rest) => (if negative then -x else x, rest)

def Value.ofInput (s : String) : Value :=
  match leadingNumber? s.toList with
  | some (x, rest) => if rest.all isSpace then .numeral s x else .text s
  | none => .text s

/-- A number as a fraction with its sign. -/
def fraction (x : Float) : Real := Real.ofFloat x

/-- A number without what stands behind the point. -/
def wholePart (x : Float) : Int :=
  let r := fraction x
  let n : Int := r.above / r.below
  if r.negative then -n else n

def strangeText? (x : Float) : Option String :=
  if x.isNaN then some "-nan"
  else if x.isInf then some (if x < 0 then "-inf" else "inf")
  else none

/-- A number that is written with all its digits; larger ones have a power of ten. -/
def integerText? (x : Float) : Option String :=
  let n := wholePart x
  let most : Int := 18446744073709551615
  if (strangeText? x).isNone && Float.floor x == x && -numberLimit < n && n ≤ most + 1 then
    some (toString (min n most))
  else none

/-- A number in the form that a directive such as `%.6g` gives it. -/
def formatted (form : String) (x : Float) : String :=
  match form.toList with
  | '%' :: s =>
    let (d, rest, _) := directive s ⟨[], [], [], false⟩
    if ['e', 'f', 'g', 'E', 'F', 'G'].contains d.kind then String.ofList (d.real (fraction x) ++ rest)
    else if d.kind == 'd' || d.kind == 'i' then String.ofList (d.signed (wholePart x) ++ rest)
    else form
  | _ => form

namespace Value

def numberText (form : String) (x : Float) : String :=
  (strangeText? x).getD ((integerText? x).getD (formatted form x))

def toText (form : String) : Value → String
  | unset => ""
  | number x => numberText form x
  | text s => s
  | numeral s _ => s

def toNumber : Value → Float
  | unset => 0
  | number x => x
  | text s => ((leadingNumber? s.toList).map (·.1)).getD 0
  | numeral _ x => x

def isTrue : Value → Bool
  | unset => false
  | number x => x != 0
  | text s => !s.isEmpty
  | numeral _ x => x != 0

def isNumeric : Value → Bool
  | text _ => false
  | _ => true

def ofBool (b : Bool) : Value := number (if b then 1 else 0)

def ofNat (n : Nat) : Value := number (Float.ofNat n)

/-- Compares as numbers if both are such, and as texts otherwise. -/
def order (form : String) (a b : Value) : Option Ordering :=
  if a.isNumeric && b.isNumeric then
    let x := a.toNumber
    let y := b.toNumber
    if x < y then some .lt else if x == y then some .eq else if y < x then some .gt else none
  else
    let s := a.toText form
    let t := b.toText form
    some (if s < t then .lt else if s == t then .eq else .gt)

end Value

end FragmentMerge.Script.Awk

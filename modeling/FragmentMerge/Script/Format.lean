import FragmentMerge.Script.Number

/-! What `echo` and `printf` print. A number with a fraction is a fraction of two whole numbers; decimal
digits are rounded to the nearest, and to the even one of two that are as near. -/

namespace FragmentMerge.Script

def isOctal (c : Char) : Bool := '0' ≤ c && c ≤ '7'

/-- The character that stands after a backslash, and what follows it; another backslash counts as
written. -/
def escapedChar : List Char → Char × List Char
  | [] => ('\\', [])
  | c :: s =>
    if isOctal c then
      let ds := (c :: s).takeWhile isOctal |>.take 3
      let n := (digits 8 0 ds).1
      (Char.ofNat (n % 256), (c :: s).drop ds.length)
    else match c with
    | '\\' => ('\\', s)
    | 'a' => ('\x07', s)
    | 'b' => ('\x08', s)
    | 'e' => ('\x1b', s)
    | 'f' => ('\x0c', s)
    | 'n' => ('\n', s)
    | 'r' => ('\r', s)
    | 't' => ('\t', s)
    | 'v' => ('\x0b', s)
    | c => ('\\', c :: s)

/-- The text of an argument with escapes, and whether it asks to end there. A nought may stand before
the digits of a character. -/
def unescapedWithin : Nat → List Char → List Char × Bool
  | 0, _ => ([], false)
  | _, [] => ([], false)
  | n + 1, '\\' :: s =>
    match s with
    | 'c' :: _ => ([], true)
    | s =>
      let t := match s with
        | '0' :: d :: r => if isOctal d then d :: r else s
        | s => s
      let (c, rest) := escapedChar t
      let (cs, ends) := unescapedWithin n rest
      (c :: cs, ends)
  | n + 1, c :: s =>
    let (cs, ends) := unescapedWithin n s
    (c :: cs, ends)

def unescaped (s : List Char) : List Char × Bool := unescapedWithin (s.length + 1) s

def echoed (ws : List String) : String :=
  let (ws, last) := match ws with
    | "-n" :: ws => (ws, "")
    | ws => (ws, "\n")
  let (s, ends) := unescaped (" ".intercalate ws).toList
  String.ofList s ++ if ends then "" else last

structure Directive where
  flags : List Char
  width : Nat
  precision : Option Nat
  kind : Char

namespace Directive

def has (d : Directive) (flag : Char) : Bool := d.flags.contains flag

/-- Fills up to the width. Noughts go between a sign and the digits. -/
def pad (d : Directive) (zeros : Bool) (sign digits : List Char) : List Char :=
  let n := d.width - sign.length - digits.length
  if d.has '-' then sign ++ digits ++ List.replicate n ' '
  else if zeros && d.has '0' then sign ++ List.replicate n '0' ++ digits
  else List.replicate n ' ' ++ sign ++ digits

def sign (d : Directive) (negative : Bool) : List Char :=
  if negative then ['-'] else if d.has '+' then ['+'] else if d.has ' ' then [' '] else []

def text (d : Directive) (s : List Char) : List Char :=
  d.pad false [] (match d.precision with
    | some n => s.take n
    | none => s)

def filledDigits (d : Directive) (s : List Char) (n : Nat) : List Char :=
  match d.precision with
  | some 0 => if n = 0 then [] else s
  | some p => List.replicate (p - s.length) '0' ++ s
  | none => s

def signed (d : Directive) (n : Int) : List Char :=
  d.pad d.precision.isNone (d.sign (n < 0))
    (d.filledDigits (toString n.natAbs).toList n.natAbs)

def unsigned (d : Directive) (n : Nat) : List Char :=
  match d.kind with
  | 'o' =>
    let s := d.filledDigits (Nat.toDigits 8 n) n
    d.pad d.precision.isNone [] (if d.has '#' && s.head? != some '0' then '0' :: s else s)
  | 'x' =>
    d.pad d.precision.isNone (if d.has '#' && n != 0 then ['0', 'x'] else [])
      (d.filledDigits (Nat.toDigits 16 n) n)
  | 'X' =>
    d.pad d.precision.isNone (if d.has '#' && n != 0 then ['0', 'X'] else [])
      (d.filledDigits ((Nat.toDigits 16 n).map Char.toUpper) n)
  | _ => d.pad d.precision.isNone [] (d.filledDigits (toString n).toList n)

end Directive

/-- A number with its sign: a fraction, or one that is too large or none. -/
structure Real where
  negative : Bool
  above : Nat
  below : Nat
  deriving DecidableEq, Repr

/-- The nearest number to a fraction that has 53 bits. -/
def Real.ofFloat (x : Float) : Real :=
  let bits := x.toBits.toNat
  let exponent := bits / Nat.pow 2 52 % 2048
  let mantissa := bits % Nat.pow 2 52 + if exponent = 0 then 0 else Nat.pow 2 52
  let shift : Int := (if exponent = 0 then 1 else (exponent : Int)) - 1075
  ⟨Nat.pow 2 63 ≤ bits,
    mantissa * (if 0 ≤ shift then Nat.pow 2 shift.toNat else 1),
    if shift < 0 then Nat.pow 2 (-shift).toNat else 1⟩

def rounded (above below : Nat) : Nat :=
  let q := above / below
  let r := above % below
  if 2 * r < below || (2 * r = below && q % 2 = 0) then q else q + 1

def pointed (digits : List Char) (n : Nat) : List Char :=
  let digits := List.replicate (n + 1 - digits.length) '0' ++ digits
  let (a, b) := digits.splitAt (digits.length - n)
  if n = 0 then a else a ++ '.' :: b

/-- The power of ten of the first digit of a fraction. -/
def magnitude : Nat → Nat → Nat → Int
  | 0, _, _ => 0
  | n + 1, above, below =>
    if above = 0 then 0
    else if above < below then magnitude n (above * 10) below - 1
    else if below * 10 ≤ above then magnitude n above (below * 10) + 1
    else 0

/-- A fraction as digits of which the first stands before the point, and a power of ten. -/
def scientific (above below places : Nat) : List Char × Int :=
  let e := magnitude 800 above below
  let scale (e : Int) : Nat :=
    let k := (places : Int) - e
    if 0 ≤ k then rounded (above * Nat.pow 10 k.toNat) below
    else rounded above (below * Nat.pow 10 (-k).toNat)
  let n := scale e
  if Nat.pow 10 (places + 1) ≤ n then ((toString (scale (e + 1))).toList, e + 1)
  else ((toString n).toList, e)

def exponentText (e : Int) : List Char :=
  let ds := (toString e.natAbs).toList
  'e' :: (if e < 0 then '-' else '+') :: (List.replicate (2 - ds.length) '0' ++ ds)

def dropZeros (s : List Char) : List Char :=
  if s.contains '.' then ((s.reverse.dropWhile (· == '0')).dropWhile (· == '.')).reverse else s

namespace Directive

def real (d : Directive) (x : Real) : List Char :=
  let p := d.precision.getD 6
  let digits := match d.kind.toLower with
    | 'f' => pointed (toString (rounded (x.above * Nat.pow 10 p) x.below)).toList p
    | 'e' =>
      let (ds, e) := scientific x.above x.below p
      pointed ds p ++ exponentText e
    | _ =>
      let p := max p 1
      let (ds, e) := scientific x.above x.below (p - 1)
      let trim := fun (s : List Char) => if d.has '#' then s else dropZeros s
      if e < -4 || (p : Int) ≤ e then trim (pointed ds (p - 1)) ++ exponentText e
      else
        let places := ((p : Int) - 1 - e).toNat
        trim (pointed (toString (rounded (x.above * Nat.pow 10 places) x.below)).toList places)
  let digits := if d.kind.isUpper then digits.map Char.toUpper else digits
  d.pad true (d.sign x.negative) digits

end Directive

def decimal? (s : List Char) : Option (Float × List Char) :=
  let whole := s.takeWhile Char.isDigit
  let s := s.drop whole.length
  let (fraction, s') := match s with
    | '.' :: s => (s.takeWhile Char.isDigit, s.drop (s.takeWhile Char.isDigit).length)
    | s => ([], s)
  if whole.isEmpty && fraction.isEmpty then none
  else
    let (exponent, rest) := match s' with
      | 'e' :: t => ((numeral? false t).elim (0, s') fun r =>
        if (t.head?.map isSpace).getD false then (0, s') else (r.value, r.rest))
      | 'E' :: t => ((numeral? false t).elim (0, s') fun r =>
        if (t.head?.map isSpace).getD false then (0, s') else (r.value, r.rest))
      | s' => ((0 : Int), s')
    let mantissa := (digits 10 0 (whole ++ fraction)).1
    let power := exponent - fraction.length
    some (Float.ofScientific mantissa (power < 0) power.natAbs, rest)

def real? (s : List Char) : Option (Real × List Char) :=
  let s := s.dropWhile isSpace
  let (negative, s) := match s with
    | '-' :: s => (true, s)
    | '+' :: s => (false, s)
    | s => (false, s)
  (decimal? s).map fun (x, rest) => ({ Real.ofFloat x with negative }, rest)

inductive Misprint where
  | noNumber
  | cutShort
  | outOfRange
  deriving DecidableEq, Repr

def Misprint.text : Misprint → String
  | noNumber => "expected numeric value"
  | cutShort => "not completely converted"
  | outOfRange => "Numerical result out of range"

/-- The arguments that are left, the text so far, complaints about arguments, and whether it ends
early. -/
structure Printing where
  args : List String
  out : List Char
  complaints : List (String × Misprint)
  ends : Bool

namespace Printing

def add (p : Printing) (s : List Char) : Printing := { p with out := p.out ++ s }

def next (p : Printing) : Option String × Printing := (p.args.head?, { p with args := p.args.tail })

def check (p : Printing) (arg : String) (rest : List Char) (cut : Bool) : Printing :=
  if !rest.isEmpty then
    let what := if rest.length = arg.length then Misprint.noNumber else .cutShort
    { p with complaints := p.complaints ++ [(arg, what)] }
  else if cut then { p with complaints := p.complaints ++ [(arg, .outOfRange)] }
  else p

def integer (isSigned : Bool) (p : Printing) : Int × Printing :=
  match p.next with
  | (none, p) => (0, p)
  | (some arg, p) =>
    match arg.toList with
    | '"' :: s => (((s.head?.map Char.toNat).getD 0 : Nat), p)
    | '\'' :: s => (((s.head?.map Char.toNat).getD 0 : Nat), p)
    | s =>
      match numeral? true s with
      | none => (0, p.check arg s false)
      | some r =>
        if isSigned || !r.isCut then (r.value, p.check arg r.rest r.isCut)
        else
          let t := s.dropWhile isSpace
          let t := if t.head? = some '+' then t.drop 1 else t
          let (base, ds) := baseOf t
          let (n, rest) := digits base 0 ds
          let most := Nat.pow 2 64 - 1
          if t.head? = some '-' then (most, p.check arg r.rest true)
          else (min n most, p.check arg rest (most < n))

def real (p : Printing) : Real × Printing :=
  match p.next with
  | (none, p) => (⟨false, 0, 1⟩, p)
  | (some arg, p) =>
    match arg.toList with
    | '"' :: s => (⟨false, (s.head?.map Char.toNat).getD 0, 1⟩, p)
    | '\'' :: s => (⟨false, (s.head?.map Char.toNat).getD 0, 1⟩, p)
    | s =>
      match real? s with
      | none => (⟨false, 0, 1⟩, p.check arg s false)
      | some (x, rest) => (x, p.check arg rest false)

end Printing

/-- A number in a directive, or the argument that stands for it. -/
def directiveNumber (s : List Char) (p : Printing) : Option Int × List Char × Printing :=
  match s with
  | '*' :: s =>
    let (n, p) := p.integer true
    (some n, s, p)
  | s =>
    let ds := s.takeWhile Char.isDigit
    (if ds.isEmpty then none else some ((digits 10 0 ds).1 : Int), s.drop ds.length, p)

def directive (s : List Char) (p : Printing) : Directive × List Char × Printing :=
  let flags := s.takeWhile fun c => "#-+ 0".toList.contains c
  let (width, s, p) := directiveNumber (s.drop flags.length) p
  let width := width.getD 0
  let flags := if width < 0 then '-' :: flags else flags
  let (precision, s, p) := match s with
    | '.' :: s =>
      let (n, s, p) := directiveNumber s p
      let n := n.getD 0
      (if n < 0 then none else some n.toNat, s, p)
    | s => (none, s, p)
  (⟨flags, width.natAbs, precision, s.headD '\x00'⟩, s.drop 1, p)

def Directive.print? (d : Directive) (p : Printing) : Option Printing :=
  match d.kind with
  | 's' =>
    let (arg, p) := p.next
    some (p.add (d.text (arg.getD "").toList))
  | 'b' =>
    let (arg, p) := p.next
    let (s, ends) := unescaped (arg.getD "").toList
    some { p.add (d.text s) with ends }
  | 'c' =>
    let (arg, p) := p.next
    some (p.add (d.pad false [] [((arg.getD "").toList.headD '\x00')]))
  | 'd' =>
    let (n, p) := p.integer true
    some (p.add (d.signed n))
  | 'i' =>
    let (n, p) := p.integer true
    some (p.add (d.signed n))
  | k =>
    if ['o', 'u', 'x', 'X'].contains k then
      let (n, p) := p.integer false
      some (p.add (d.unsigned (n % (2 * numberLimit + 2)).toNat))
    else if ['f', 'F', 'e', 'E', 'g', 'G'].contains k then
      let (x, p) := p.real
      some (p.add (d.real x))
    else none

inductive PrintFault where
  | missing
  | invalid (directive : String)

def printOnce : Nat → List Char → Printing → Printing × Option PrintFault
  | 0, _, p => (p, none)
  | _, [], p => (p, none)
  | n + 1, '\\' :: s, p =>
    let (c, rest) := escapedChar s
    printOnce n rest (p.add [c])
  | n + 1, '%' :: '%' :: s, p => printOnce n s (p.add ['%'])
  | n + 1, '%' :: s, p =>
    let (d, rest, p) := directive s p
    if d.kind = '\x00' then (p, some .missing)
    else match d.print? p with
    | none =>
      let length := s.length - rest.length
      (p, some (.invalid (String.ofList ('%' :: s.take length))))
    | some p => if p.ends then (p, none) else printOnce n rest p
  | n + 1, c :: s, p => printOnce n s (p.add [c])

/-- Goes through a format once, and again while arguments are used up and some are left. -/
def printAll : Nat → List Char → Printing → Printing × Option PrintFault
  | 0, _, p => (p, none)
  | n + 1, format, p =>
    match printOnce (format.length + 1) format p with
    | (q, none) =>
      if q.ends || q.args.isEmpty || q.args.length = p.args.length then (q, none)
      else printAll n format q
    | r => r

def printed (format : String) (args : List String) : Printing × Option PrintFault :=
  printAll (args.length + 1) format.toList ⟨args, [], [], false⟩

end FragmentMerge.Script

/-! UTF-8: the bytes of a text, and the text of bytes or the first place where they are none. -/

namespace FragmentMerge.Utf8

def bytes (s : String) : List UInt8 := s.toUTF8.data.toList

/-- The first fault of a byte sequence: where the character starts, and how many bytes of it are
wrong together; no length means that the bytes end inside a character. -/
structure Fault where
  index : Nat
  length : Option Nat
  deriving DecidableEq, Repr

def Fault.message (f : Fault) : String :=
  match f.length with
  | some n => s!"invalid utf-8 sequence of {n} bytes from index {f.index}"
  | none => s!"incomplete utf-8 byte sequence from index {f.index}"

def isTail (b : UInt8) : Bool := 0x80 ≤ b && b ≤ 0xBF

/-- The second byte of a character of three or four bytes rules out overlong forms, surrogates
and what lies above the last code point. -/
def secondAllowed (a b : UInt8) : Bool :=
  if a == 0xE0 then 0xA0 ≤ b && b ≤ 0xBF
  else if a == 0xED then 0x80 ≤ b && b ≤ 0x9F
  else if a == 0xF0 then 0x90 ≤ b && b ≤ 0xBF
  else if a == 0xF4 then 0x80 ≤ b && b ≤ 0x8F
  else isTail b

/-- The number of bytes of the character that starts with `a`, or 0 when none does. -/
def width (a : UInt8) : Nat :=
  if a < 0x80 then 1
  else if 0xC2 ≤ a && a ≤ 0xDF then 2
  else if 0xE0 ≤ a && a ≤ 0xEF then 3
  else if 0xF0 ≤ a && a ≤ 0xF4 then 4
  else 0

def low (b : UInt8) : Nat := b.toNat % 64

/-- Reads on from byte `i`; the characters before it stand in `done`, last first. -/
def decodeFrom (i : Nat) (done : List Char) : List UInt8 → Except Fault (List Char)
  | [] => .ok done.reverse
  | a :: r =>
    match width a with
    | 1 => decodeFrom (i + 1) (Char.ofNat a.toNat :: done) r
    | 2 =>
      match r with
      | [] => .error ⟨i, none⟩
      | b :: r =>
        if isTail b then decodeFrom (i + 2) (Char.ofNat (a.toNat % 32 * 64 + low b) :: done) r
        else .error ⟨i, some 1⟩
    | 3 =>
      match r with
      | [] => .error ⟨i, none⟩
      | [b] => .error ⟨i, if secondAllowed a b then none else some 1⟩
      | b :: c :: r =>
        if !secondAllowed a b then .error ⟨i, some 1⟩
        else if !isTail c then .error ⟨i, some 2⟩
        else decodeFrom (i + 3) (Char.ofNat (a.toNat % 16 * 4096 + low b * 64 + low c) :: done) r
    | 4 =>
      match r with
      | [] => .error ⟨i, none⟩
      | [b] => .error ⟨i, if secondAllowed a b then none else some 1⟩
      | [b, c] =>
        .error ⟨i, if !secondAllowed a b then some 1 else if isTail c then none else some 2⟩
      | b :: c :: d :: r =>
        if !secondAllowed a b then .error ⟨i, some 1⟩
        else if !isTail c then .error ⟨i, some 2⟩
        else if !isTail d then .error ⟨i, some 3⟩
        else decodeFrom (i + 4)
          (Char.ofNat (a.toNat % 8 * 262144 + low b * 4096 + low c * 64 + low d) :: done) r
    | _ => .error ⟨i, some 1⟩

def decode (bs : List UInt8) : Except Fault String := (decodeFrom 0 [] bs).map String.ofList

end FragmentMerge.Utf8

import FragmentMerge.Text.Utf8

/-! Byte texts. To a shell a text is a row of bytes. A byte text holds each byte as a character below 256, so
that it can be read like any other text. -/

namespace FragmentMerge.Octet

def ofBytes (bs : List UInt8) : List Char := bs.map fun b => Char.ofNat b.toNat

def toBytes (s : List Char) : List UInt8 := s.map fun c => UInt8.ofNat c.toNat

def encode (s : String) : String := String.ofList (ofBytes (Utf8.bytes s))

/-- The text of bytes; what is no UTF-8 becomes a replacement character, fault by fault. -/
def decodeWithin : Nat → List UInt8 → String
  | 0, _ => ""
  | n + 1, bs =>
    match Utf8.decode bs with
    | .ok s => s
    | .error f =>
      let sound := ((Utf8.decode (bs.take f.index)).toOption.getD "").push '\uFFFD'
      match f.length with
      | some k => sound ++ decodeWithin n (bs.drop (f.index + k))
      | none => sound

def decode (s : String) : String :=
  let bs := toBytes s.toList
  decodeWithin (bs.length + 1) bs

end FragmentMerge.Octet

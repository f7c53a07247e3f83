import FragmentMerge.Script.Sums
import FragmentMerge.Script.Tool.Files

/-! Tools that sum up bytes or write them with letters. -/

namespace FragmentMerge.Script.Tool

open Job

structure SumKind where
  title : String
  make : List UInt8 → String
  length : Nat

def checkSums (k : SumKind) (list : String) (s : List Char) : Job Unit := do
  let lines := (rows s).filterMap fun r =>
    let digest := r.takeWhile fun c => c.isDigit || ('a' ≤ c && c ≤ 'f') || ('A' ≤ c && c ≤ 'F')
    match r.drop digest.length with
    | ' ' :: mark :: name =>
      if digest.length == k.length && (mark == ' ' || mark == '*') then
        some (String.ofList digest, String.ofList name)
      else none
    | _ => none
  let mut wrong := 0
  let mut missing := 0
  for (digest, name) in lines do
    match ← operandText name with
    | .error e => do
      complain s!"{plainName name}: {e.reason}"
      print s!"{name}: FAILED open or read\n"
      missing := missing + 1
    | .ok t =>
      if k.make (Octet.toBytes t) == digest.toLower then print s!"{name}: OK\n"
      else
        print s!"{name}: FAILED\n"
        wrong := wrong + 1
  let plural (n : Nat) (one many : String) : String := if n == 1 then one else many
  if lines.isEmpty then complain s!"{list}: no properly formatted checksum lines found"
  if missing != 0 then
    let what := plural missing "listed file" "listed files"
    complain s!"WARNING: {missing} {what} could not be read"
  if wrong != 0 then
    let what := plural wrong "computed checksum" "computed checksums"
    complain s!"WARNING: {wrong} {what} did NOT match"

def sumWith (k : SumKind) : Job Unit := do
  let (given, files) ← options ⟨"bctwzT", "", [("check", 'c'), ("binary", 'b'), ("text", 't'), ("tag", 'T')]⟩
  for f in orInput files do
    match ← operandText f with
    | .error e => complain s!"{plainName f}: {e.reason}"
    | .ok s =>
      let digest := k.make (Octet.toBytes s)
      let title := k.title
      if gives given 'c' then checkSums k (if f == "-" then "'standard input'" else f) s
      else if gives given 'T' then print s!"{title} ({f}) = {digest}\n"
      else print (digest ++ (if gives given 'b' then " *" else "  ") ++ f ++ "\n")

def md5sum : Job Unit := sumWith ⟨"MD5", Digest.md5, 32⟩

def sha1sum : Job Unit := sumWith ⟨"SHA1", Digest.sha1, 40⟩

def sha256sum : Job Unit := sumWith ⟨"SHA256", Digest.sha256, 64⟩

def sha512sum : Job Unit := sumWith ⟨"SHA512", Digest.sha512, 128⟩

def cksum : Job Unit := do
  let (_, files) ← options ⟨"", "", []⟩
  for f in orInput files do
    match ← operandText f with
    | .error e => complain s!"{plainName f}: {e.reason}"
    | .ok s =>
      let sum := Digest.checkSum (Octet.toBytes s)
      let name := if files.isEmpty then "" else " " ++ f
      print s!"{sum} {s.length}{name}\n"

def sixtyFour : List Char :=
  "ABCDEFGHIJKLMNOPQRSTUVWXYZabcdefghijklmnopqrstuvwxyz0123456789+/".toList

def lettered : List Char → List Char
  | a :: b :: c :: s =>
    let n := (a.toNat * 256 + b.toNat) * 256 + c.toNat
    letters 4 n ++ lettered s
  | [a, b] => letters 3 ((a.toNat * 256 + b.toNat) * 4) ++ ['=']
  | [a] => letters 2 (a.toNat * 16) ++ ['=', '=']
  | [] => []
where
  letters : Nat → Nat → List Char
    | 0, _ => []
    | k + 1, n => letters k (n / 64) ++ [sixtyFour.getD (n % 64) 'A']

/-- The bytes of letters, and whether the letters are in order. -/
def unlettered (held bits : Nat) : List Char → List Char × Bool
  | [] => ([], bits == 0)
  | '=' :: s => ([], (s == [] && bits == 2) || (s == ['='] && bits == 4))
  | c :: s =>
    match sixtyFour.idxOf? c with
    | none => ([], false)
    | some d =>
      let held := held * 64 + d
      let bits := bits + 6
      if bits < 8 then unlettered held bits s
      else
        let (t, isGood) := unlettered (held % Nat.pow 2 (bits - 8)) (bits - 8) s
        (Char.ofNat (held / Nat.pow 2 (bits - 8) % 256) :: t, isGood)

def wrapAt (width : Nat) : Nat → List Char → List Char
  | 0, s => s
  | n + 1, s => if s.isEmpty then [] else s.take width ++ '\n' :: wrapAt width n (s.drop width)

def base64 : Job Unit := do
  let (given, files) ← options ⟨"di", "w", [("decode", 'd'), ("wrap", 'w'), ("ignore-garbage", 'i')]⟩
  let width ← match valueOf? given 'w' with
    | none => pure 76
    | some w =>
      match digitsOnly? w with
      | some n => pure n
      | none => fail s!"invalid wrap size: {quotedName w}"
  match files with
  | _ :: extra :: _ => misuse s!"extra operand {quotedName extra}"
  | _ => pure ()
  let f := files.headD "-"
  match ← operandText f with
  | .error e => fail s!"{plainName f}: {e.reason}"
  | .ok s =>
    if gives given 'd' then do
      let s := s.filter fun c => c != '\n' && !(gives given 'i' && c != '=' && !sixtyFour.contains c)
      let (t, isGood) := unlettered 0 0 s
      printChars t
      if !isGood then complain "invalid input"
    else if width == 0 then printChars (lettered s)
    else printChars (wrapAt width (2 * s.length + 1) (lettered s))

structure DumpForm where
  size : Nat
  form : Char
  deriving DecidableEq, Repr

namespace DumpForm

def width (d : DumpForm) : Nat :=
  let most := Nat.pow 256 d.size - 1
  match d.form with
  | 'o' => (Nat.toDigits 8 most).length
  | 'x' => 2 * d.size
  | 'u' => (toString most).length
  | 'd' => (toString (most / 2)).length + 1
  | _ => 3

def number : List Char → Nat
  | [] => 0
  | c :: s => c.toNat + 256 * number s

def charText (c : Char) : String :=
  let named := [('\x00', "\\0"), ('\x07', "\\a"), ('\x08', "\\b"), ('\x0c', "\\f"), ('\n', "\\n"),
    ('\r', "\\r"), ('\t', "\\t"), ('\x0b', "\\v")]
  match named.lookup c with
  | some s => s
  | none =>
    if isShown c then c.toString
    else
      let ds := Nat.toDigits 8 c.toNat
      String.ofList (List.replicate (3 - ds.length) '0' ++ ds)

def nameText (c : Char) : String :=
  let names := ["nul", "soh", "stx", "etx", "eot", "enq", "ack", "bel", "bs", "ht", "nl", "vt", "ff", "cr",
    "so", "si", "dle", "dc1", "dc2", "dc3", "dc4", "nak", "syn", "etb", "can", "em", "sub", "esc", "fs", "gs",
    "rs", "us", "sp"]
  let n := c.toNat % 128
  if n == 127 then "del" else (names[n]?).getD (Char.ofNat n).toString

def text (d : DumpForm) (s : List Char) : String :=
  let n := number s
  let filled (ds : List Char) : String := String.ofList (List.replicate (d.width - ds.length) '0' ++ ds)
  match d.form with
  | 'o' => filled (Nat.toDigits 8 n)
  | 'x' => filled (Nat.toDigits 16 n)
  | 'u' => toString n
  | 'd' =>
    let top := Nat.pow 256 d.size
    toString (if top / 2 ≤ n then (n : Int) - top else n)
  | 'c' => charText (s.headD '\x00')
  | _ => nameText (s.headD '\x00')

def parse : Nat → List Char → Option (List DumpForm)
  | 0, _ => none
  | _, [] => some []
  | n + 1, c :: s =>
    if c == 'c' || c == 'a' then (parse n s).map (⟨1, c⟩ :: ·)
    else if "oxud".toList.contains c then
      let ds := s.takeWhile Char.isDigit
      let named := [('C', 1), ('S', 2), ('I', 4), ('L', 8)]
      match s with
      | l :: r =>
        match named.lookup l with
        | some size => (parse n r).map (⟨size, c⟩ :: ·)
        | none =>
          let size := if ds.isEmpty then 4 else (digits 10 0 ds).1
          if [1, 2, 4, 8].contains size then (parse n (s.drop ds.length)).map (⟨size, c⟩ :: ·) else none
      | [] => some [⟨4, c⟩]
    else none

end DumpForm

def groupsOf (size : Nat) : Nat → List Char → List (List Char)
  | 0, _ => []
  | n + 1, s => if s.isEmpty then [] else s.take size :: groupsOf size n (s.drop size)

/-- One line of a dump, in one form; the column of a byte is as wide as the widest form asks for. -/
def dumpLine (column : Nat) (d : DumpForm) (s : List Char) : String :=
  String.join ((groupsOf d.size (s.length + 1) s).map fun g => rightAligned (column * d.size) (d.text g))

def offsetText (radix : Char) (n : Nat) : String :=
  let filled (width : Nat) (ds : List Char) : String :=
    String.ofList (List.replicate (width - ds.length) '0' ++ ds)
  match radix with
  | 'x' => filled 6 (Nat.toDigits 16 n)
  | 'd' => filled 7 (Nat.toDigits 10 n)
  | 'n' => ""
  | _ => filled 7 (Nat.toDigits 8 n)

/-- The lines of a dump. Lines like the one before are left out, but for a star. -/
def dumpLines (forms : List DumpForm) (radix : Char) (all : Bool) (width : Nat) :
    Nat → Nat → Option (List Char) → Bool → List Char → List String
  | 0, _, _, _, _ => []
  | n + 1, offset, before, starred, s =>
    if s.isEmpty then (if radix == 'n' then [] else [offsetText radix offset])
    else
      let row := s.take width
      let rest := s.drop width
      if !all && before == some row && width ≤ s.length then
        (if starred then [] else ["*"]) ++
          dumpLines forms radix all width n (offset + row.length) before true rest
      else
        let column (d : DumpForm) : Nat := (d.width + d.size) / d.size
        let widest := (forms.map column).foldl max 0
        let cell (d : DumpForm) : String :=
          if forms.length == 1 then
            String.join ((groupsOf d.size (row.length + 1) row).map fun g =>
              " " ++ rightAligned d.width (d.text g))
          else dumpLine widest d row
        let lead := offsetText radix offset
        let others := String.ofList (List.replicate lead.length ' ')
        forms.zipIdx.map (fun (d, i) => (if i == 0 then lead else others) ++ cell d) ++
          dumpLines forms radix all width n (offset + row.length) (some row) false rest

def od : Job Unit := do
  let (given, files) ← options ⟨"abcdovx", "AtNjw", [("address-radix", 'A'), ("format", 't'),
    ("read-bytes", 'N'), ("skip-bytes", 'j'), ("output-duplicates", 'v'), ("width", 'w')]⟩
  let plain : List (Char × DumpForm) := [('a', ⟨1, 'a'⟩), ('b', ⟨1, 'o'⟩), ('c', ⟨1, 'c'⟩), ('d', ⟨2, 'u'⟩),
    ('o', ⟨2, 'o'⟩), ('x', ⟨2, 'x'⟩)]
  let mut forms : List DumpForm := []
  for g in given do
    if g.letter == 't' then
      match DumpForm.parse (g.value.length + 1) g.value.toList with
      | some ds => forms := forms ++ ds
      | none =>
        let form := g.value
        fail s!"invalid type string {quotedName form}"
    else match plain.lookup g.letter with
    | some d => forms := forms ++ [d]
    | none => pure ()
  if forms.isEmpty then forms := [⟨2, 'o'⟩]
  let count (letter : Char) : Option Nat := (valueOf? given letter).bind digitsOnly?
  let mut text : List Char := []
  let mut read := false
  for f in orInput files do
    match ← operandText f with
    | .ok s =>
      text := text ++ s
      read := true
    | .error e => complain s!"{plainName f}: {e.reason}"
  if !read then quit
  let skipped := (count 'j').getD 0
  let s := text.drop skipped
  let s := match count 'N' with
    | some n => s.take n
    | none => s
  let radix := ((valueOf? given 'A').bind (·.toList.head?)).getD 'o'
  let width := max ((count 'w').getD 16) 1
  print (String.join ((dumpLines forms radix (gives given 'v') width (s.length + 2) skipped none false s).map
    (· ++ "\n")))

end FragmentMerge.Script.Tool

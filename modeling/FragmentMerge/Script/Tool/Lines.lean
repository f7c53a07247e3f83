import FragmentMerge.Script.Tool.Basic
import FragmentMerge.Script.Wildcard

/-! Tools that work on the lines of their input. -/

namespace FragmentMerge.Script.Tool

open Job

def shown (c : Char) : List Char :=
  let n := c.toNat
  let plain (n : Nat) : List Char :=
    if n < 32 then ['^', Char.ofNat (n + 64)]
    else if n == 127 then ['^', '?']
    else [Char.ofNat n]
  if n < 128 then plain n else 'M' :: '-' :: plain (n - 128)

def catRow (given : List Given) (row : List Char) : List Char :=
  let has (cs : List Char) : Bool := cs.any (gives given ·)
  let body := row.filter (· != '\n')
  let body := body.flatMap fun c =>
    if c == '\t' then (if has ['T', 'A', 't'] then ['^', 'I'] else [c])
    else if has ['v', 'A', 'e', 't'] then shown c
    else [c]
  let body := if has ['E', 'A', 'e'] && row.getLast? == some '\n' then body ++ ['$'] else body
  if row.getLast? == some '\n' then body ++ ['\n'] else body

/-- The rows with their numbers; `blank` is whether the row before was empty. -/
def catRows (given : List Given) (n : Nat) (blank : Bool) : List (List Char) → List Char
  | [] => []
  | row :: rows =>
    let isEmpty := row == ['\n']
    if isEmpty && blank && gives given 's' then catRows given n true rows
    else
      let numbered := if gives given 'b' then !isEmpty else gives given 'n'
      let number := if numbered then (rightAligned 6 (toString n) ++ "\t").toList else []
      number ++ catRow given row ++ catRows given (if numbered then n + 1 else n) isEmpty rows

def cat : Job Unit := do
  let (given, files) ← options ⟨"AbeEnstTuv", "", [("number", 'n'), ("number-nonblank", 'b'),
    ("squeeze-blank", 's'), ("show-all", 'A'), ("show-ends", 'E'), ("show-tabs", 'T'),
    ("show-nonprinting", 'v')]⟩
  let mut text : List Char := []
  for f in orInput files do
    let b ← get
    let way := match b.disk.locate (Octet.decode f) with
      | .ok (.file way _) => some way
      | _ => none
    match ← operandText f with
    | .error e => complain s!"{plainName f}: {e.reason}"
    | .ok s =>
      if way.isSome && way == b.call.target && !s.isEmpty then
        complain s!"{f}: input file is output file"
      else if given.isEmpty then printChars s
      else text := text ++ s
  printChars (catRows given 1 false (wholeRows text))

def amount? (s : List Char) : Option Nat :=
  let ds := s.takeWhile Char.isDigit
  let unit := match String.ofList (s.drop ds.length) with
    | "" => some 1
    | "b" => some 512
    | "k" => some 1024
    | "K" => some 1024
    | "kB" => some 1000
    | "M" => some 1048576
    | _ => none
  if ds.isEmpty then none else unit.map fun u => (digits 10 0 ds).1 * u

/-- An old way to give a number: a dash and digits. -/
def withOldNumber (args : List String) : List String :=
  match args with
  | a :: rest =>
    match a.toList with
    | '-' :: d :: ds => if d.isDigit && ds.all Char.isDigit then "-n" :: String.ofList (d :: ds) :: rest
      else args
    | '+' :: d :: ds => if d.isDigit && ds.all Char.isDigit then "-n" :: a :: rest else args
    | _ => args
  | [] => []

def setArgs (args : List String) : Job Unit :=
  modify fun b => { b with call := { b.call with args } }

def parts (files : List String) (titled : Bool) (part : List Char → List Char) : Job Unit := do
  let mut first := true
  for f in orInput files do
    let shown := if f == "-" then "standard input" else f
    let gap := if first then "" else "\n"
    let title := if titled then s!"{gap}==> {shown} <==\n" else ""
    match ← operandText f with
    | .error .isDirectory => do
      print title
      complain s!"error reading {quotedName f}: Is a directory"
      first := false
    | .error e => complain s!"cannot open {quotedName f} for reading: {e.reason}"
    | .ok s => do
      print title
      printChars (part s)
      first := false

inductive Extent where
  | first (n : Nat)
  | butLast (n : Nat)
  | last (n : Nat)
  | since (n : Nat)
  deriving DecidableEq, Repr

def Extent.of {α : Type} (xs : List α) : Extent → List α
  | first n => xs.take n
  | butLast n => xs.take (xs.length - n)
  | last n => xs.drop (xs.length - n)
  | since n => xs.drop (n - 1)

def Extent.part (e : Extent) (bytes : Bool) (s : List Char) : List Char :=
  if bytes then e.of s else (e.of (wholeRows s)).flatten

def extentOf (given : List Given) (plain : Nat → Extent) (signed : Char → Nat → Option Extent) :
    Job (Extent × Bool) := do
  match (given.filter fun g => g.letter == 'n' || g.letter == 'c').getLast? with
  | none => pure (plain 10, false)
  | some g =>
    let bytes := g.letter == 'c'
    let what := if bytes then "bytes" else "lines"
    let wrong : Job (Extent × Bool) := fail s!"invalid number of {what}: '{g.value}'"
    match g.value.toList with
    | c :: ds =>
      if c == '-' || c == '+' then
        match amount? ds with
        | some n => pure ((signed c n).getD (plain n), bytes)
        | none => wrong
      else match amount? (c :: ds) with
      | some n => pure (plain n, bytes)
      | none => wrong
    | [] => wrong

def titles (given : List Given) (files : List String) : Bool :=
  (1 < files.length && !gives given 'q') || gives given 'v'

def partOptions : Options :=
  ⟨"qvzfF", "nc", [("lines", 'n'), ("bytes", 'c'), ("quiet", 'q'), ("silent", 'q'), ("verbose", 'v')]⟩

/-- Prints the start of each file. What it does not print of an input file is left to be read. -/
def head : Job Unit := do
  setArgs (withOldNumber (← get).call.args)
  let (given, files) ← options partOptions
  let (extent, bytes) ← extentOf given .first fun c n => if c == '-' then some (.butLast n) else none
  parts files (titles given files) (extent.part bytes)
  let call := (← get).call
  if call.inputSize.isSome && files.isEmpty then
    modify fun b => { b with rest := some (call.input.drop (extent.part bytes call.input).length) }

def tail : Job Unit := do
  setArgs (withOldNumber (← get).call.args)
  let (given, files) ← options partOptions
  let (extent, bytes) ← extentOf given .last fun c n => if c == '+' then some (.since n) else none
  parts files (titles given files) (extent.part bytes)

structure Counts where
  lines : Nat
  words : Nat
  chars : Nat
  width : Nat
  deriving DecidableEq, Repr

def Counts.add (a b : Counts) : Counts :=
  ⟨a.lines + b.lines, a.words + b.words, a.chars + b.chars, max a.width b.width⟩

def countWords : Bool → List Char → Nat
  | _, [] => 0
  | inside, c :: s =>
    if isSpace c then countWords false s
    else (if inside then 0 else 1) + countWords true s

def rowWidth (row : List Char) : Nat :=
  row.foldl (fun n c =>
    if c == '\t' then n + 8 - n % 8 else if ' ' ≤ c && c ≤ '~' then n + 1 else n) 0

def Counts.of (s : List Char) : Counts :=
  ⟨(s.filter (· == '\n')).length, countWords false s, s.length,
    (rows s).foldl (fun n r => max n (rowWidth r)) 0⟩

def wc : Job Unit := do
  let (given, files) ← options ⟨"clmwL", "", [("lines", 'l'), ("words", 'w'), ("chars", 'm'),
    ("bytes", 'c'), ("max-line-length", 'L')]⟩
  let asks (c : Char) : Bool := gives given c
  let plain := given.isEmpty
  let columns (c : Counts) : List Nat :=
    (if plain || asks 'l' then [c.lines] else []) ++ (if plain || asks 'w' then [c.words] else []) ++
      (if asks 'm' then [c.chars] else []) ++ (if plain || asks 'c' then [c.chars] else []) ++
      (if asks 'L' then [c.width] else [])
  let call := (← get).call
  let names := orInput files
  let mut total := 0
  let mut least := 1
  for f in names do
    if f == "-" then
      match call.inputSize with
      | some n => total := total + n
      | none => least := 7
    else match (← disk).read (Octet.decode f) with
    | .ok c => total := total + c.bytes.length
    | .error .isDirectory => least := 7
    | .error _ => if f == "/dev/null" then least := 7
  let width :=
    if names.length ≤ 1 && (columns ⟨0, 0, 0, 0⟩).length == 1 then 1
    else max least (toString total).length
  let line (c : Counts) (name : String) : String :=
    " ".intercalate ((columns c).map fun n => rightAligned width (toString n)) ++
      (if name.isEmpty then "" else " " ++ name) ++ "\n"
  let mut sum : Counts := ⟨0, 0, 0, 0⟩
  for f in names do
    if f.isEmpty then complain "invalid zero-length file name"
    else match ← operandText f with
    | .error .isDirectory => do
      complain s!"{plainName f}: Is a directory"
      print (line ⟨0, 0, 0, 0⟩ f)
    | .error e => complain s!"{plainName f}: {e.reason}"
    | .ok s => do
      let c := Counts.of s
      sum := sum.add c
      print (line c (if files.isEmpty then "" else f))
  if 1 < names.length then print (line sum "total")

/-- A field and a character in it where a key starts or ends, from one on; with the letters behind
it. -/
structure KeyPlace where
  field : Nat
  char : Nat
  letters : List Char
  deriving DecidableEq, Repr

structure SortKey where
  start : KeyPlace
  stop : Option KeyPlace
  deriving DecidableEq, Repr

def keyPlace? (s : List Char) : Option (KeyPlace × List Char) :=
  let ds := s.takeWhile Char.isDigit
  if ds.isEmpty then none
  else
    let field := (digits 10 0 ds).1
    let s := s.drop ds.length
    let (char, s) := match s with
      | '.' :: s => ((digits 10 0 (s.takeWhile Char.isDigit)).1, s.dropWhile Char.isDigit)
      | s => (0, s)
    let letters := s.takeWhile Char.isAlpha
    some (⟨field, char, letters⟩, s.drop letters.length)

def sortKey? (s : String) : Option SortKey := do
  let (start, rest) ← keyPlace? s.toList
  match rest with
  | [] => some ⟨start, none⟩
  | ',' :: rest =>
    let (stop, rest) ← keyPlace? rest
    if rest.isEmpty then some ⟨start, some stop⟩ else none
  | _ => none

/-- Where the fields of a row start and end. Without a separator a field starts with the blanks before
it. -/
def fieldBounds (separator : Option Char) (row : List Char) : List (Nat × Nat) :=
  match separator with
  | some c =>
    ((row.splitOn c).foldl (fun (i, bounds) f =>
      (i + f.length + 1, bounds ++ [(i, i + f.length)])) ((0 : Nat), ([] : List (Nat × Nat)))).2
  | none =>
    let (last, bounds, _) := row.foldl (fun (i, bounds, inWord) c =>
      let isGap := c == ' ' || c == '\t'
      if isGap && inWord then (i + 1, bounds ++ [i], false)
      else (i + 1, bounds, inWord || !isGap)) ((0 : Nat), ([] : List Nat), false)
    let starts := 0 :: bounds
    starts.zip (bounds ++ [last])

def keyText (separator : Option Char) (blanks : Bool) (k : SortKey) (row : List Char) : List Char :=
  let bounds := fieldBounds separator row
  let skip (i : Nat) : Nat :=
    if blanks then i + ((row.drop i).takeWhile fun c => c == ' ' || c == '\t').length else i
  let start := match bounds[k.start.field - 1]? with
    | some (a, _) => skip a + (k.start.char - 1)
    | none => row.length
  let stop := match k.stop with
    | none => row.length
    | some p =>
      match bounds[p.field - 1]? with
      | some (a, b) => if p.char == 0 then b else skip a + p.char
      | none => row.length
  (row.take stop).drop start

/-- A number at the start of a text, in thousandths of a thousandth. -/
def sortNumber (s : List Char) : Int :=
  let s := s.dropWhile fun c => c == ' ' || c == '\t'
  let (negative, s) := match s with
    | '-' :: s => (true, s)
    | s => (false, s)
  let (n, rest) := digits 10 0 s
  let fraction := match rest with
    | '.' :: r => (r.takeWhile Char.isDigit).take 12
    | _ => []
  let value : Nat := n * Nat.pow 10 12 +
    (digits 10 0 (fraction ++ List.replicate (12 - fraction.length) '0')).1
  if negative then -(value : Int) else value

/-- A number with an exponent at the start of a text: a whole number and the power of ten behind it; none
if no number stands there. -/
def generalNumber? (s : List Char) : Option (Int × Int) :=
  let s := s.dropWhile isSpace
  let (negative, s) := match s with
    | '-' :: s => (true, s)
    | '+' :: s => (false, s)
    | s => (false, s)
  let whole := s.takeWhile Char.isDigit
  let (fraction, rest) := match s.drop whole.length with
    | '.' :: r => (r.takeWhile Char.isDigit, r.dropWhile Char.isDigit)
    | r => ([], r)
  let exponent : Int := match rest with
    | e :: '-' :: r => if e == 'e' || e == 'E' then -((digits 10 0 r).1 : Int) else 0
    | e :: '+' :: r => if e == 'e' || e == 'E' then ((digits 10 0 r).1 : Int) else 0
    | e :: r => if e == 'e' || e == 'E' then ((digits 10 0 r).1 : Int) else 0
    | [] => 0
  if whole.isEmpty && fraction.isEmpty then none
  else
    let n : Int := ((digits 10 0 (whole ++ fraction)).1 : Int)
    some (if negative then -n else n, max (-5000) (min 5000 (exponent - fraction.length)))

def compareGeneral : Option (Int × Int) → Option (Int × Int) → Ordering
  | none, none => .eq
  | none, some _ => .lt
  | some _, none => .gt
  | some (m, e), some (n, f) =>
    let least := min e f
    compare (m * (Nat.pow 10 (e - least).toNat : Nat)) (n * (Nat.pow 10 (f - least).toNat : Nat))

/-- The rank of the unit behind a number at the start of a text; below nought for a number below
nought. -/
def unitRank (s : List Char) : Int :=
  let s := s.dropWhile fun c => c == ' ' || c == '\t'
  let (negative, s) := match s with
    | '-' :: s => (true, s)
    | s => (false, s)
  let rest := s.dropWhile fun c => c.isDigit || c == '.'
  let rank : Nat := match rest with
    | c :: _ => (("kKMGTPEZY".toList.idxOf? c).map fun i => max i 1).getD 0
    | [] => 0
  if negative then -(rank : Int) else rank

/-- A version: texts and numbers by turns. -/
def versionParts : Nat → List Char → List (List Char × Nat)
  | 0, _ => []
  | _, [] => []
  | n + 1, s =>
    let text := s.takeWhile (!·.isDigit)
    let (k, rest) := digits 10 0 (s.drop text.length)
    (text, k) :: versionParts n rest

def compareVersions : List (List Char × Nat) → List (List Char × Nat) → Ordering
  | [], [] => .eq
  | [], _ :: _ => .lt
  | _ :: _, [] => .gt
  | (s, m) :: a, (t, n) :: b =>
    (compare s t).then ((compare m n).then (compareVersions a b))

def foldCase (s : List Char) : List Char := s.map Char.toUpper

def compareKeys (letters : List Char) (a b : List Char) : Ordering :=
  let order :=
    if letters.contains 'n' then compare (sortNumber a) (sortNumber b)
    else if letters.contains 'g' then compareGeneral (generalNumber? a) (generalNumber? b)
    else if letters.contains 'h' then
      (compare (unitRank a) (unitRank b)).then (compare (sortNumber a) (sortNumber b))
    else if letters.contains 'V' then
      compareVersions (versionParts (a.length + 1) a) (versionParts (b.length + 1) b)
    else
      let clean (s : List Char) : List Char :=
        let s := if letters.contains 'b' then s.dropWhile fun c => c == ' ' || c == '\t' else s
        let s := if letters.contains 'd' then
          s.filter fun c => c.isAlphanum || c == ' ' || c == '\t' else s
        let s := if letters.contains 'i' then s.filter fun c => ' ' ≤ c && c ≤ '~' else s
        if letters.contains 'f' then foldCase s else s
      compare (clean a) (clean b)
  if letters.contains 'r' then order.swap else order

def SortKey.letters (k : SortKey) (common : List Char) : List Char :=
  let own := k.start.letters ++ (k.stop.map (·.letters)).getD []
  if own.isEmpty then common else own

def compareRows (keys : List SortKey) (separator : Option Char) (common : List Char) (a b : List Char) :
    Ordering :=
  match keys with
  | [] => compareKeys common a b
  | keys =>
    keys.foldl (fun order k =>
      let letters := k.letters common
      let blanks := letters.contains 'b'
      order.then (compareKeys letters (keyText separator blanks k a) (keyText separator blanks k b)))
      .eq

def dropRepeated (same : List Char → List Char → Bool) : List (List Char) → List (List Char)
  | a :: b :: rest =>
    if same a b then dropRepeated same (a :: rest) else a :: dropRepeated same (b :: rest)
  | rows => rows

def isSorted (before : List Char → List Char → Bool) : List (List Char) → Option (List Char × Nat)
  | rows => ((rows.zip (rows.drop 1)).zipIdx.find? fun ((a, b), _) => !before a b).map
      fun ((_, b), i) => (b, i + 2)

def sort : Job Unit := do
  let (given, files) ← optionsAs 2 ⟨"bcdfghimnruVsRMC", "kotS", [("reverse", 'r'), ("numeric-sort", 'n'),
    ("unique", 'u'), ("key", 'k'), ("output", 'o'), ("field-separator", 't'), ("ignore-case", 'f'),
    ("stable", 's'), ("check", 'c'), ("version-sort", 'V'), ("ignore-leading-blanks", 'b')]⟩
  let common := (given.map (·.letter)).filter fun c => "bdfginrVh".toList.contains c
  let keys ← (given.filter (·.letter == 'k')).mapM fun g =>
    match sortKey? g.value with
    | some k => do
      if k.start.field == 0 then failAs 2 s!"-: invalid field specification '{g.value}'"
      pure k
    | none => failAs 2 s!"invalid number at field start: invalid count at start of '{g.value}'"
  let separator ← match valueOf? given 't' with
    | none => pure none
    | some "\\0" => pure (some '\x00')
    | some t =>
      match t.toList with
      | [] => failAs 2 "empty tab"
      | [c] => pure (some c)
      | _ => failAs 2 s!"multi-character tab '{t}'"
  let mut inputs : List (List (List Char)) := []
  for f in orInput files do
    match ← operandText f with
    | .error .isDirectory => failAs 2 s!"read failed: {plainName f}: Is a directory"
    | .error e => failAs 2 s!"cannot read: {plainName f}: {e.reason}"
    | .ok s => inputs := inputs ++ [rows s]
  let all := inputs.flatten
  let byKey (a b : List Char) : Ordering := compareRows keys separator common a b
  let order (a b : List Char) : Ordering :=
    let o := byKey a b
    if o != .eq || gives given 's' || gives given 'u' then o
    else if common.contains 'r' then compare b a
    else compare a b
  if gives given 'c' || gives given 'C' then
    let inOrder (a b : List Char) : Bool :=
      if gives given 'u' then order a b == .lt else order a b != .gt
    match isSorted inOrder all with
    | none => pure ()
    | some (row, n) => do
      let file := (orInput files).headD "-"
      if gives given 'c' then complain s!"{file}:{n}: disorder: {String.ofList row}" else setStatus 1
  else
    let inOrder (a b : List Char) : Bool := order a b != .gt
    let sorted := if gives given 'm' then inputs.foldl (fun xs ys => xs.merge ys inOrder) []
      else all.mergeSort inOrder
    let sorted := if gives given 'u' then dropRepeated (fun a b => byKey a b == .eq) sorted else sorted
    let text := unrows sorted
    match valueOf? given 'o' with
    | none => printChars text
    | some f =>
      match ← change fun d => d.write (Octet.decode f) (Content.ofBytes (Octet.toBytes text)) with
      | .ok () => pure ()
      | .error e => failAs 2 s!"open failed: {f}: {e.reason}"

/-- Groups of neighbours that count as one: the first of each, and how many they are. -/
def groups (same : List Char → List Char → Bool) : List (List Char) → List (List Char × List (List Char))
  | [] => []
  | r :: rs =>
    match groups same rs with
    | (s, more) :: gs => if same r s then (r, s :: more) :: gs else (r, []) :: (s, more) :: gs
    | [] => [(r, [])]

def uniqueText (given : List Given) (row : List Char) : List Char :=
  let number (c : Char) : Nat := ((valueOf? given c).bind digitsOnly?).getD 0
  let isGap (c : Char) : Bool := c == ' ' || c == '\t'
  let row := (List.range (number 'f')).foldl (fun r _ => (r.dropWhile isGap).dropWhile (!isGap ·)) row
  let row := row.drop (number 's')
  let row := match (valueOf? given 'w').bind digitsOnly? with
    | some n => row.take n
    | none => row
  if gives given 'i' then foldCase row else row

def uniq : Job Unit := do
  let (given, files) ← options ⟨"cdDiuz", "fsw", [("count", 'c'), ("repeated", 'd'), ("unique", 'u'),
    ("ignore-case", 'i'), ("skip-fields", 'f'), ("skip-chars", 's'), ("check-chars", 'w')]⟩
  if 2 < files.length then
    let extra := files.getD 2 ""
    misuse s!"extra operand {quotedName extra}"
  match ← operandText (files.headD "-") with
  | .error e =>
    let f := files.headD "-"
    if e = .isDirectory then fail s!"error reading {quotedName f}"
    else fail s!"{plainName f}: {e.reason}"
  | .ok s =>
    let gs := groups (fun a b => uniqueText given a == uniqueText given b) (rows s)
    let gs := gs.filter fun (_, more) =>
      (!gives given 'd' || !more.isEmpty) && (!gives given 'u' || more.isEmpty)
    let line (g : List Char × List (List Char)) : List Char :=
      if gives given 'c' then (rightAligned 7 (toString (g.2.length + 1)) ++ " ").toList ++ g.1 else g.1
    let text := if gives given 'D' then
        unrows (gs.filter (!·.2.isEmpty) |>.flatMap fun g => g.1 :: g.2)
      else unrows (gs.map line)
    match files[1]? with
    | none => printChars text
    | some f =>
      if f == "-" then printChars text
      else match ← change fun d => d.write (Octet.decode f) (Content.ofBytes (Octet.toBytes text)) with
      | .ok () => pure ()
      | .error e => fail s!"{plainName f}: {e.reason}"

def ranges? (s : String) : Option (List (Nat × Option Nat)) :=
  (s.toList.splitOn ',').mapM fun part =>
    match part.splitOn '-' with
    | [a] => do
      let n ← digitsOnly? (String.ofList a)
      some (n, some n)
    | [a, b] => do
      if a.isEmpty && b.isEmpty then none
      let m ← if a.isEmpty then some 1 else digitsOnly? (String.ofList a)
      if b.isEmpty then some (m, none)
      else
        let n ← digitsOnly? (String.ofList b)
        some (m, some n)
    | _ => none

def chosen (rs : List (Nat × Option Nat)) (complement : Bool) (i : Nat) : Bool :=
  (rs.any fun (a, b) => a ≤ i && match b with
    | some b => decide (i ≤ b)
    | none => true) != complement

def chooseFrom {α : Type} (rs : List (Nat × Option Nat)) (complement : Bool) (xs : List α) : List α :=
  (xs.zipIdx.filter fun (_, i) => chosen rs complement (i + 1)).map (·.1)

def cut : Job Unit := do
  let (given, files) ← options ⟨"nszC", "bcdfO", [("bytes", 'b'), ("characters", 'c'), ("delimiter", 'd'),
    ("fields", 'f'), ("only-delimited", 's'), ("output-delimiter", 'O'), ("complement", 'C')]⟩
  let lists := given.filter fun g => g.letter == 'b' || g.letter == 'c' || g.letter == 'f'
  let list ← match lists with
    | [] => misuse "you must specify a list of bytes, characters, or fields"
    | [g] => pure g
    | _ => misuse "only one list may be specified"
  let byField := list.letter == 'f'
  let what := if byField then "field" else "byte/character position"
  let rs ← match ranges? list.value with
    | none => misuse s!"invalid {what} value '{list.value}'"
    | some rs => pure rs
  if rs.any (·.1 == 0) then
    misuse (if byField then "fields are numbered from 1" else "byte/character positions are numbered from 1")
  if rs.any fun (a, b) => b.any (· < a) then misuse "invalid decreasing range"
  let delimiter ← match valueOf? given 'd' with
    | none => pure '\t'
    | some d =>
      match d.toList with
      | [c] => pure c
      | [] => pure '\x00'
      | _ => misuse "the delimiter must be a single character"
  let between := ((valueOf? given 'O').map String.toList).getD [delimiter]
  let row (r : List Char) : Option (List Char) :=
    if !byField then some (chooseFrom rs (gives given 'C') r)
    else if !r.contains delimiter then (if gives given 's' then none else some r)
    else some (List.intercalate between (chooseFrom rs (gives given 'C') (r.splitOn delimiter)))
  for f in orInput files do
    match ← operandText f with
    | .error e => complain s!"{plainName f}: {e.reason}"
    | .ok s => printChars (unrows ((rows s).filterMap row))

def paste : Job Unit := do
  let (given, files) ← options ⟨"sz", "d", [("serial", 's'), ("delimiters", 'd')]⟩
  let unescape : List Char → List Char := fun s =>
    (String.ofList s).replace "\\t" "\t" |>.replace "\\n" "\n" |>.toList
  let ds := unescape ((valueOf? given 'd').getD "\t").toList
  let between (i : Nat) : List Char := if ds.isEmpty then [] else [ds.getD (i % ds.length) '\t']
  let joined (parts : List (List Char)) : List Char :=
    parts.zipIdx.flatMap fun (p, i) => if i == 0 then p else between (i - 1) ++ p
  let mut all : List (List (List Char)) := []
  let names := orInput files
  let inputs := (names.filter (· == "-")).length
  let standard ← if 0 < inputs then input else pure []
  let mut taken := 0
  for f in names do
    if f == "-" then
      let rs := rows standard
      if gives given 's' then all := all ++ [if taken == 0 then rs else []]
      else all := all ++ [(rs.zipIdx.filter fun (_, i) => i % inputs == taken).map (·.1)]
      taken := taken + 1
    else match ← fileText f with
    | .error e => fail s!"{plainName f}: {e.reason}"
    | .ok s => all := all ++ [rows s]
  if gives given 's' then printChars (unrows (all.map joined))
  else
    let n := all.foldl (fun n rs => max n rs.length) 0
    printChars (unrows ((List.range n).map fun i => joined (all.map fun rs => rs.getD i [])))

def eachText (files : List String) (complaint : String → Errno → String)
    (f : List Char → List Char) : Job Unit := do
  for file in orInput files do
    match ← operandText file with
    | .error e => complain (complaint file e)
    | .ok s => printChars (f s)

def simpleComplaint (file : String) (e : Errno) : String := s!"{plainName file}: {e.reason}"

def tac : Job Unit := do
  let (given, files) ← options ⟨"br", "s", [("before", 'b'), ("separator", 's')]⟩
  let separator := (((valueOf? given 's').getD "\n").toList).headD '\n'
  let cut (s : List Char) : List (List Char) :=
    let parts := s.splitOn separator
    let parts := if gives given 'b' then
        parts.take 1 ++ (parts.drop 1).map (separator :: ·)
      else parts.dropLast.map (· ++ [separator]) ++ (parts.getLast?).toList
    parts.filter (!·.isEmpty)
  eachText files (fun f e => if e = .isDirectory then s!"{f}: read error: Is a directory"
      else s!"failed to open {quotedName f} for reading: {e.reason}")
    fun s => (cut s).reverse.flatten

def rev : Job Unit := do
  let (_, files) ← options ⟨"", "", []⟩
  eachText files (fun f e => s!"cannot open {f}: {e.reason}") fun s =>
    (wholeRows s).flatMap fun r =>
      if r.getLast? == some '\n' then r.dropLast.reverse ++ ['\n'] else r.reverse

def foldRow (width : Nat) (atBlanks : Bool) : Nat → List Char → List (List Char)
  | 0, row => [row]
  | n + 1, row =>
    if row.length ≤ width then [row]
    else
      let first := row.take width
      let upToBlank := (first.reverse.dropWhile (· != ' ')).length
      let cut := if atBlanks && 0 < upToBlank then upToBlank else width
      row.take cut :: foldRow width atBlanks n (row.drop cut)

def fold : Job Unit := do
  let isWidth (a : String) : Bool := a.startsWith "-" && (digitsOnly? (String.ofList (a.toList.drop 1))).isSome
  setArgs ((← get).call.args.map fun a => if isWidth a then "-w" ++ String.ofList (a.toList.drop 1) else a)
  let (given, files) ← options ⟨"bs", "w", [("width", 'w'), ("spaces", 's'), ("bytes", 'b')]⟩
  let width ← match valueOf? given 'w' with
    | none => pure 80
    | some w =>
      match digitsOnly? w with
      | some (n + 1) => pure (n + 1)
      | _ => fail s!"invalid number of columns: '{w}'"
  eachText files simpleComplaint fun s =>
    (wholeRows s).flatMap fun r =>
      let body := r.filter (· != '\n')
      List.intercalate ['\n'] (foldRow width (gives given 's') (body.length + 1) body) ++
        (if r.getLast? == some '\n' then ['\n'] else [])

def nl : Job Unit := do
  let (given, files) ← options ⟨"p", "bdfhilnsvw", [("body-numbering", 'b'), ("number-width", 'w'),
    ("number-separator", 's'), ("starting-line-number", 'v'), ("line-increment", 'i'),
    ("number-format", 'n')]⟩
  let number (c : Char) (n : Nat) : Nat := ((valueOf? given c).bind digitsOnly?).getD n
  let width := number 'w' 6
  let separator := (valueOf? given 's').getD "\t"
  let style := (valueOf? given 'b').getD "t"
  let placed (n : Nat) : String :=
    let ds := toString n
    match valueOf? given 'n' with
    | some "ln" => ds ++ String.ofList (List.replicate (width - ds.length) ' ')
    | some "rz" => String.ofList (List.replicate (width - ds.length) '0') ++ ds
    | _ => rightAligned width ds
  let mut text : List Char := []
  for f in orInput files do
    match ← operandText f with
    | .error e => complain (simpleComplaint f e)
    | .ok s => text := text ++ s
  let step (n : Nat) (r : List Char) : Nat × List Char :=
    if style == "a" || (style == "t" && !r.isEmpty) then
      (n + number 'i' 1, (placed n ++ separator).toList ++ r)
    else (n, List.replicate (width + separator.length) ' ' ++ r)
  let (_, out) := (rows text).foldl (fun (n, out) r =>
    let (n, line) := step n r
    (n, line :: out)) (number 'v' 1, [])
  printChars (unrows out.reverse)

/-- Rows of two sorted files: each row with whether it is in the first, the second or both; and whether
the files turn out to be unsorted. -/
structure Comparison where
  rows : List (Nat × List Char)
  firstUnsorted : Bool
  secondUnsorted : Bool

def stepsBack : List (List Char) → Bool
  | a :: b :: _ => b < a
  | _ => false

/-- Compares files. Their order is only looked at once some row has had no partner. -/
def compared : Nat → Bool → List (List Char) → List (List Char) → Comparison
  | 0, _, _, _ => ⟨[], false, false⟩
  | n + 1, unpaired, as, bs =>
    let onFirst : Comparison :=
      let c := compared n true (as.drop 1) bs
      ⟨(1, as.headD []) :: c.rows, stepsBack as || c.firstUnsorted, c.secondUnsorted⟩
    let onSecond : Comparison :=
      let c := compared n true as (bs.drop 1)
      ⟨(2, bs.headD []) :: c.rows, c.firstUnsorted, stepsBack bs || c.secondUnsorted⟩
    match as, bs with
    | [], [] => ⟨[], false, false⟩
    | [], _ => onSecond
    | _, [] => onFirst
    | a :: _, b :: _ =>
      match compare a b with
      | .lt => onFirst
      | .gt => onSecond
      | .eq =>
        let c := compared n unpaired (as.drop 1) (bs.drop 1)
        ⟨(3, a) :: c.rows, (unpaired && stepsBack as) || c.firstUnsorted,
          (unpaired && stepsBack bs) || c.secondUnsorted⟩

def comm : Job Unit := do
  let (given, files) ← options ⟨"123zcn", "o", [("output-delimiter", 'o'), ("check-order", 'c'),
    ("nocheck-order", 'n')]⟩
  match files with
  | [a, b] =>
    match ← operandText a, ← operandText b with
    | .error e, _ => fail s!"{plainName a}: {e.reason}"
    | _, .error e => fail s!"{plainName b}: {e.reason}"
    | .ok s, .ok t =>
      let hides (k : Nat) : Bool := gives given (Char.ofNat (48 + k))
      let between := (valueOf? given 'o').getD "\t"
      let lead (k : Nat) : List Char :=
        ((List.range k).filter fun i => i != 0 && !hides i).flatMap fun _ => between.toList
      let c := compared (s.length + t.length + 1) false (rows s) (rows t)
      let shown := c.rows.filter fun (k, _) => !hides k
      printChars (unrows (shown.map fun (k, r) => lead k ++ r))
      if !gives given 'n' then
        if c.firstUnsorted then complain "file 1 is not in sorted order"
        if c.secondUnsorted then complain "file 2 is not in sorted order"
        if c.firstUnsorted || c.secondUnsorted then complain "input is not in sorted order"
  | [] => misuse "missing operand"
  | [a] => misuse s!"missing operand after {quotedName a}"
  | _ =>
    let extra := files.getD 2 ""
    misuse s!"extra operand {quotedName extra}"

/-- A part of a set of `tr`. A fill takes as many characters as it needs to make the set as long as the
other one. -/
inductive TrPart where
  | chars (cs : List Char)
  | kind (name : String)
  | fill (c : Char)
  deriving DecidableEq, Repr

def trChar? : List Char → Option (Char × List Char)
  | '\\' :: c :: r =>
    if '0' ≤ c && c ≤ '7' then
      let ds := (c :: r).takeWhile (fun c => '0' ≤ c && c ≤ '7') |>.take 3
      some (Char.ofNat ((digits 8 0 ds).1 % 256), (c :: r).drop ds.length)
    else
      let named := [('n', '\n'), ('t', '\t'), ('r', '\r'), ('a', '\x07'), ('b', '\x08'),
        ('f', '\x0c'), ('v', '\x0b')]
      some ((named.lookup c).getD c, r)
  | c :: r => some (c, r)
  | [] => none

def trShown (c : Char) : String :=
  if ' ' ≤ c && c ≤ '~' then String.ofList [c]
  else
    let ds := Nat.toDigits 8 c.toNat
    String.ofList ('\\' :: List.replicate (3 - ds.length) '0' ++ ds)

def trBracketed? (s : List Char) : Option (Except String TrPart × List Char) :=
  match s with
  | '[' :: ':' :: r =>
    let name := r.takeWhile (· != ':')
    match r.drop name.length with
    | ':' :: ']' :: rest =>
      let name := String.ofList name
      some (if (kind? name).isSome then .ok (.kind name) else .error s!"invalid character class '{name}'", rest)
    | _ => none
  | '[' :: r =>
    match trChar? r with
    | some (c, '*' :: r) =>
      let ds := r.takeWhile Char.isDigit
      match r.drop ds.length with
      | ']' :: rest =>
        let n := (digits (if ds.head? == some '0' then 8 else 10) 0 ds).1
        some (.ok (if n == 0 then .fill c else .chars (List.replicate n c)), rest)
      | _ => none
    | _ => none
  | _ => none

def trParts : Nat → List Char → Except String (List TrPart)
  | 0, _ => .ok []
  | n + 1, s =>
    match trBracketed? s with
    | some (part, rest) => do
      let part ← part
      pure (part :: (← trParts n rest))
    | none =>
      match trChar? s with
      | none => .ok []
      | some (a, '-' :: r) =>
        match trChar? r with
        | some (b, rest) =>
          if b < a then
            .error s!"range-endpoints of '{trShown a}-{trShown b}' are in reverse collating sequence order"
          else do
            let run := (List.range (b.toNat + 1 - a.toNat)).map fun i => Char.ofNat (a.toNat + i)
            pure (.chars run :: (← trParts n rest))
        | none => .ok [.chars [a, '-']]
      | some (a, rest) => do pure (.chars [a] :: (← trParts n rest))

def TrPart.text (filling : Nat) : TrPart → List Char
  | chars cs => cs
  | kind name => ((List.range 256).map Char.ofNat).filter ((kind? name).getD fun _ => false)
  | fill c => List.replicate filling c

def trText (parts : List TrPart) (size : Nat) : List Char :=
  let bare := parts.flatMap (TrPart.text 0)
  parts.flatMap (TrPart.text (size - bare.length))

def squeeze (set : Char → Bool) : List Char → List Char
  | a :: b :: s => if a == b && set a then squeeze set (b :: s) else a :: squeeze set (b :: s)
  | s => s

def tr : Job Unit := do
  let args := (← get).call.args
  let o : Options := ⟨"cCdst", "", [("delete", 'd'), ("squeeze-repeats", 's'), ("complement", 'c'),
    ("truncate-set1", 't')]⟩
  let (given, sets) ← o.parse true 1 (args.length + 1) args
  let deletes := gives given 'd'
  let squeezes := gives given 's'
  let complements := gives given 'c' || gives given 'C'
  let least := if deletes == squeezes then 2 else 1
  let most := if deletes && !squeezes then 1 else 2
  match sets with
  | [] => misuse "missing operand"
  | [a] =>
    if least == 2 then
      let why := if deletes then "Two strings must be given when both deleting and squeezing repeats."
        else "Two strings must be given when translating."
      misuse s!"missing operand after {quotedName a}\n{why}"
  | sets =>
    if most < sets.length then
      let extra := sets.getD most ""
      let why := if most == 1 && sets.length == 2 then
        "\nOnly one string may be given when deleting without squeezing repeats." else ""
      misuse s!"extra operand {quotedName extra}{why}"
  let set (i : Nat) : Job (List TrPart) := do
    let s := (sets.getD i "").toList
    match trParts (s.length + 1) s with
    | .ok parts => pure parts
    | .error m => fail m
  let firstParts ← set 0
  let secondParts ← set 1
  let isFill (p : TrPart) : Bool :=
    match p with
    | .fill _ => true
    | _ => false
  if firstParts.any isFill then fail "the [c*] repeat construct may not appear in string1"
  let first := trText firstParts 0
  let first := if complements then ((List.range 256).map Char.ofNat).filter (!first.contains ·) else first
  let translates := !deletes && sets.length == 2
  if !translates && secondParts.any isFill then
    fail "the [c*] construct may appear in string2 only when translating"
  let second := trText secondParts (if translates then first.length else 0)
  let isCase (p : TrPart) : Bool := p == .kind "upper" || p == .kind "lower"
  if translates && (secondParts.any isCase || !complements) then
    let kinds (ps : List TrPart) : Nat := (ps.filter isCase).length
    if kinds firstParts < kinds secondParts then
      fail "misaligned [:upper:] and/or [:lower:] construct"
    if secondParts.any fun p => (match p with
        | .kind _ => true
        | _ => false) && !isCase p then
      fail "when translating, the only character classes that may appear in\nstring2 are 'upper' and 'lower'"
  let s ← input
  if deletes then
    let s := s.filter (!first.contains ·)
    printChars (if squeezes then squeeze second.contains s else s)
  else if sets.length == 1 then printChars (squeeze first.contains s)
  else
    if second.isEmpty && !first.isEmpty && !gives given 't' then
      fail "when not truncating set1, string2 must be non-empty"
    let last := second.getLastD 'x'
    let first := if gives given 't' then first.take second.length else first
    let pairs := first.zip (second ++ List.replicate (first.length - second.length) last)
    let pairs := pairs.reverse
    let s := s.map fun c => (pairs.lookup c).getD c
    printChars (if squeezes then squeeze second.contains s else s)

end FragmentMerge.Script.Tool

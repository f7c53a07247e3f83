import FragmentMerge.Pattern.Folding
import FragmentMerge.Pattern.GroupName
import FragmentMerge.Pattern.Property.Name
import FragmentMerge.Pattern.Syntax
import FragmentMerge.Text.Basic

/-! Reads the written form of a pattern. There is no look-around and there are no references back to
groups: both are faults. A class comes with its depth: how many brackets, operations and rows of items
lie within one another in it. -/

namespace FragmentMerge.Pattern

inductive Fault where
  | groupNotClosed
  | groupNotOpened
  | classNotClosed
  | nothingToRepeat
  | badCount
  | badEscape
  | badFlags
  | badName
  | badRange
  | badProperty
  | lookAround
  | backreference
  | notText
  | tooDeep
  | tooLarge
  deriving DecidableEq, Repr

def Fault.message : Fault → String
  | .groupNotClosed => "unclosed group"
  | .groupNotOpened => "unopened group"
  | .classNotClosed => "unclosed character class"
  | .nothingToRepeat => "repetition operator missing expression"
  | .badCount => "invalid repetition count"
  | .badEscape => "unrecognized escape sequence"
  | .badFlags => "invalid flags"
  | .badName => "invalid or duplicate capture group name"
  | .badRange => "invalid character class range"
  | .badProperty => "Unicode property not found"
  | .lookAround => "look-around is not supported"
  | .backreference => "backreferences are not supported"
  | .notText => "pattern can match invalid UTF-8"
  | .tooDeep => "exceeded the maximum number of nested parentheses/brackets"
  | .tooLarge => "compiled pattern exceeds size limit"

structure Flags where
  ignoreCase : Bool
  manyLines : Bool
  dotAll : Bool
  lazy : Bool
  unicode : Bool
  spaced : Bool
  wide : Bool

def Flags.initial : Flags := ⟨false, false, false, false, true, false, false⟩

structure State where
  flags : Flags
  groups : Nat
  names : List (String × Nat)

abbrev Parsed (α : Type) := Except Fault (α × List Char)

def isBlankChar (c : Char) : Bool := whiteSpace.has c

/-- Drops blanks and comments, where the flags make them no part of the pattern. -/
def skipWithin : Nat → List Char → List Char
  | 0, s => s
  | n + 1, s =>
    match s.dropWhile isBlankChar with
    | '#' :: r => skipWithin n (r.dropWhile (· != '\n'))
    | r => r

def skip (f : Flags) (s : List Char) : List Char := if f.spaced then skipWithin (s.length + 1) s else s

/-- The first character that is no blank; the sign in front of a comment is passed over once. -/
def firstWithin (inComment : Bool) : List Char → Option Char
  | [] => none
  | c :: s =>
    if isBlankChar c then firstWithin inComment s
    else if !inComment && c == '#' then firstWithin true s
    else some c

def peek (f : Flags) (s : List Char) : Option Char :=
  if f.spaced then firstWithin false s <|> s.head? else s.head?

def hexValue? (c : Char) : Option Nat :=
  if c.isDigit then some (c.toNat - 48)
  else if 'a' ≤ c && c ≤ 'f' then some (c.toNat - 87)
  else if 'A' ≤ c && c ≤ 'F' then some (c.toNat - 55)
  else none

def hexNumber? (ds : List Char) : Option Nat :=
  if ds.isEmpty then none
  else ds.foldl (fun n c => match n, hexValue? c with
    | some n, some d => some (n * 16 + d)
    | _, _ => none) (some 0)

def charOf? (n : Nat) : Option Char :=
  if n < 0xD800 || (0xDFFF < n && n ≤ 0x10FFFF) then some (Char.ofNat n) else none

def bracedWithin (f : Flags) : Nat → List Char → Option (List Char × List Char)
  | 0, _ => none
  | n + 1, s =>
    match skip f s with
    | [] => none
    | '\x7d' :: r => some ([], r)
    | c :: r => (bracedWithin f n r).map fun (cs, r) => (c :: cs, r)

def braced? (f : Flags) (s : List Char) : Option (List Char × List Char) :=
  bracedWithin f (s.length + 1) s

def nextChars? (f : Flags) : Nat → List Char → Option (List Char × List Char)
  | 0, s => some ([], s)
  | n + 1, s =>
    match skip f s with
    | [] => none
    | c :: r => (nextChars? f n r).map fun (cs, r) => (c :: cs, r)

inductive Escaped where
  | char (c : Char)
  | byte (c : Char)
  | set (rs : Ranges)
  | look (l : Look)

/-- The character of a code point in braces or in `n` hexadecimal digits. Two digits without braces
stand for a byte. -/
def hexEscape (f : Flags) (n : Nat) (s : List Char) : Parsed Escaped :=
  let s := skip f s
  let found := match s with
    | '\x7b' :: t => (braced? f t).map fun (ds, r) => (ds, true, r)
    | _ => (nextChars? f n s).map fun (ds, r) => (ds, false, r)
  match found with
  | none => .error .badEscape
  | some (ds, isBraced, r) =>
    match (hexNumber? ds).bind charOf? with
    | none => .error .badEscape
    | some c => .ok (if n = 2 && !isBraced then .byte c else .char c, skip f r)

def Flags.alphabet (f : Flags) : Alphabet := if f.unicode then .unicode else .ascii

def Flags.digits (f : Flags) : Ranges := if f.unicode then decimalDigits else asciiDigits

def Flags.spaces (f : Flags) : Ranges := if f.unicode then whiteSpace else asciiSpaces

def Flags.fold (f : Flags) (rs : Ranges) : Ranges :=
  if !f.ignoreCase then rs else if f.unicode then rs.foldCase else rs.foldAscii

/-- Outside Unicode a set may not hold what is no character. -/
def Flags.sound (f : Flags) (rs : Ranges) : Except Fault Ranges :=
  if f.unicode || rs.isAscii then .ok rs else .error .notText

def Flags.turned (f : Flags) (negated : Bool) (rs : Ranges) : Except Fault Ranges :=
  f.sound (if negated then rs.complement else rs)

def Flags.close (f : Flags) (negated : Bool) (rs : Ranges) : Except Fault Ranges :=
  f.turned negated (f.fold rs)

def namedProperty (f : Flags) (negated : Bool) (body : List Char) : Except Fault Ranges :=
  let found :=
    match Text.find? ['!', '='] body with
    | some (n, v) => (propertyValue? n v).map fun rs => (!negated, rs)
    | none =>
      match Text.cutFirst? ':' body <|> Text.cutFirst? '=' body with
      | some (n, v) => (propertyValue? n v).map fun rs => (negated, rs)
      | none => (property? body).map fun rs => (negated, rs)
  match found with
  | some (negated, rs) => if f.unicode then f.close negated rs else .error .badProperty
  | none => .error .badProperty

def propertyEscape (f : Flags) (negated : Bool) (s : List Char) : Parsed Escaped :=
  match skip f s with
  | [] => .error .badEscape
  | '\\' :: _ => .error .badProperty
  | '\x7b' :: s =>
    match braced? f s with
    | none => .error .badEscape
    | some (body, r) => (namedProperty f negated body).map fun rs => (.set rs, r)
  | c :: s => (namedProperty f negated [c]).map fun rs => (.set rs, skip f s)

def isMeta (c : Char) : Bool := "\\.+*?()|[]\x7b\x7d^$#&-~".toList.contains c

/-- Punctuation may always be escaped; letters and digits only where they mean something. -/
def isEscapable (c : Char) : Bool :=
  isMeta c || (c.toNat < 0x80 && !c.isAlphanum && c != '<' && c != '>')

def edgeWords (f : Flags) : List (String × Look) :=
  [("start", .wordStart f.alphabet), ("end", .wordEnd f.alphabet),
   ("start-half", .beforeWord f.alphabet), ("end-half", .afterWord f.alphabet)]

def isEdgeChar (c : Char) : Bool := c.isAlpha || c == '-'

/-- The named word edge in braces after `\b`; none when the braces count repetitions. -/
def namedEdge (f : Flags) (s : List Char) : Except Fault (Option (Look × List Char)) :=
  match s with
  | '\x7b' :: t =>
    match skip f t with
    | [] => .error .badEscape
    | c :: t =>
      if !isEdgeChar c then .ok none
      else match braced? f (c :: t) with
        | none => .error .badEscape
        | some (name, r) =>
          match (edgeWords f).lookup (String.ofList name) with
          | some l => .ok (some (l, r))
          | none => .error .badEscape
  | _ => .ok none

def classEscape (f : Flags) (negated : Bool) (rs : Ranges) (s : List Char) : Parsed Escaped :=
  (f.turned negated rs).map fun rs => (.set rs, s)

def escape (f : Flags) : List Char → Parsed Escaped
  | [] => .error .badEscape
  | c :: s =>
    if c.isDigit then .error .backreference
    else match c with
    | 'x' => hexEscape f 2 s
    | 'u' => hexEscape f 4 s
    | 'U' => hexEscape f 8 s
    | 'p' => propertyEscape f false s
    | 'P' => propertyEscape f true s
    | 'd' => classEscape f false f.digits s
    | 'D' => classEscape f true f.digits s
    | 's' => classEscape f false f.spaces s
    | 'S' => classEscape f true f.spaces s
    | 'w' => classEscape f false f.alphabet.word s
    | 'W' => classEscape f true f.alphabet.word s
    | 'a' => .ok (.char '\x07', s)
    | 'f' => .ok (.char '\x0c', s)
    | 't' => .ok (.char '\t', s)
    | 'n' => .ok (.char '\n', s)
    | 'r' => .ok (.char '\r', s)
    | 'v' => .ok (.char '\x0b', s)
    | 'A' => .ok (.look .textStart, s)
    | 'z' => .ok (.look .textEnd, s)
    | 'B' => .ok (.look (.noEdge f.alphabet), s)
    | '<' => .ok (.look (.wordStart f.alphabet), s)
    | '>' => .ok (.look (.wordEnd f.alphabet), s)
    | 'b' =>
      match namedEdge f s with
      | .error e => .error e
      | .ok (some (l, r)) => .ok (.look l, r)
      | .ok none => .ok (.look (.edge f.alphabet), s)
    | c => if isEscapable c then .ok (.char c, s) else .error .badEscape

def oneChar (f : Flags) (c : Char) : Expr :=
  if f.unicode || c.toNat < 0x80 then Expr.ofSet (f.fold (Ranges.single c)) else .text [c]

def Escaped.expr (f : Flags) : Escaped → Except Fault Expr
  | .char c => .ok (oneChar f c)
  | .byte c => if f.unicode || c.toNat < 0x80 then .ok (oneChar f c) else .error .notText
  | .set rs => .ok (Expr.ofSet rs)
  | .look l => .ok (.look l)

def asciiClass? (name : String) : Option Ranges :=
  match name with
  | "alnum" => some [(0x30, 0x39), (0x41, 0x5A), (0x61, 0x7A)]
  | "alpha" => some [(0x41, 0x5A), (0x61, 0x7A)]
  | "ascii" => some [(0, 0x7F)]
  | "blank" => some [(9, 9), (0x20, 0x20)]
  | "cntrl" => some [(0, 0x1F), (0x7F, 0x7F)]
  | "digit" => some asciiDigits
  | "graph" => some [(0x21, 0x7E)]
  | "lower" => some [(0x61, 0x7A)]
  | "print" => some [(0x20, 0x7E)]
  | "punct" => some [(0x21, 0x2F), (0x3A, 0x40), (0x5B, 0x60), (0x7B, 0x7E)]
  | "space" => some asciiSpaces
  | "upper" => some [(0x41, 0x5A)]
  | "word" => some asciiWord
  | "xdigit" => some [(0x30, 0x39), (0x41, 0x46), (0x61, 0x66)]
  | _ => none

/-- A named class such as `[:alpha:]`, after its first bracket. -/
def namedClass? : List Char → Option (Bool × Ranges × List Char)
  | ':' :: s =>
    let (negated, s) := match s with
      | '^' :: s => (true, s)
      | s => (false, s)
    let name := s.takeWhile (· != ':')
    match s.drop name.length with
    | ':' :: ']' :: r => (asciiClass? (String.ofList name)).map fun rs => (negated, rs, r)
    | _ => none
  | _ => none

/-- One end of a range, or one item of a class: a character, or a set. -/
def classItem (f : Flags) : List Char → Parsed (Sum Char Ranges)
  | [] => .error .classNotClosed
  | '\\' :: s =>
    match escape f s with
    | .error e => .error e
    | .ok (.char c, r) => (f.sound (Ranges.single c)).map fun _ => (.inl c, r)
    | .ok (.byte c, r) => (f.sound (Ranges.single c)).map fun _ => (.inl c, r)
    | .ok (.set rs, r) => .ok (.inr rs, r)
    | .ok (.look _, _) => .error .badEscape
  | c :: s => (f.sound (Ranges.single c)).map fun _ => (.inl c, s)

def itemRanges : Sum Char Ranges → Ranges
  | .inl c => Ranges.single c
  | .inr rs => rs

/-- Whether the dash that comes next makes a range of what stands around it. -/
def makesRange (f : Flags) : List Char → Bool
  | '-' :: s => peek f s != some ']' && peek f s != some '-'
  | _ => false

def classRange (f : Flags) (s : List Char) : Parsed Ranges :=
  match classItem f s with
  | .error e => .error e
  | .ok (a, r) =>
    let r := skip f r
    if r.isEmpty then .error .classNotClosed
    else if makesRange f r then
      match classItem f (skip f (r.drop 1)) with
      | .error e => .error e
      | .ok (b, r) =>
        match a, b with
        | .inl x, .inl y => if x ≤ y then .ok ([(x.toNat, y.toNat)], r) else .error .badRange
        | _, _ => .error .badRange
    else .ok (itemRanges a, r)

inductive SetOp where
  | inter
  | diff
  | symmDiff

def SetOp.apply : SetOp → Ranges → Ranges → Ranges
  | .inter, a, b => a.inter b
  | .diff, a, b => a.diff b
  | .symmDiff, a, b => a.symmDiff b

/-- The set so far of a class: an operation waiting for its right side, and the items that make up
this side, with their number and the greatest of their depths. -/
structure ClassDraft where
  pending : Option (Ranges × Nat × SetOp)
  items : Ranges
  count : Nat
  depth : Nat

namespace ClassDraft

def start : ClassDraft := ⟨none, [], 0, 0⟩

def add (d : ClassDraft) (rs : Ranges) (depth : Nat) : ClassDraft :=
  { d with items := rs ++ d.items, count := d.count + 1, depth := max d.depth depth }

def value (f : Flags) (d : ClassDraft) : Ranges × Nat :=
  let items := Ranges.normal d.items
  let depth := if d.count ≤ 1 then d.depth else d.depth + 1
  match d.pending with
  | none => (items, depth)
  | some (l, n, op) => (op.apply (f.fold l) (f.fold items), max n depth + 1)

def operate (f : Flags) (d : ClassDraft) (op : SetOp) : ClassDraft :=
  let (rs, n) := d.value f
  { start with pending := some (rs, n, op) }

end ClassDraft

/-- The dashes that a class begins with stand for themselves. -/
def leadingDashes (f : Flags) : Nat → ClassDraft → List Char → ClassDraft × List Char
  | 0, d, s => (d, s)
  | n + 1, d, s =>
    match s with
    | '-' :: r => leadingDashes f n (d.add (Ranges.single '-') 0) (skip f r)
    | s => (d, s)

def classWithin (f : Flags) : Nat → Bool → ClassDraft → List Char → Parsed (Ranges × Nat)
  | 0, _, _, _ => .error .classNotClosed
  | n + 1, negated, d, s =>
    match skip f s with
    | [] => .error .classNotClosed
    | '[' :: r =>
      match namedClass? r with
      | some (turned, rs, r) =>
        match f.close turned rs with
        | .error e => .error e
        | .ok rs => classWithin f n negated (d.add rs 0) r
      | none =>
        match openClass f n r with
        | .error e => .error e
        | .ok ((rs, depth), r) => classWithin f n negated (d.add rs depth) r
    | ']' :: r =>
      let (rs, depth) := d.value f
      (f.close negated rs).map fun rs => ((rs, depth + 1), r)
    | '&' :: '&' :: r => classWithin f n negated (d.operate f .inter) r
    | '-' :: '-' :: r => classWithin f n negated (d.operate f .diff) r
    | '~' :: '~' :: r => classWithin f n negated (d.operate f .symmDiff) r
    | s =>
      match classRange f s with
      | .error e => .error e
      | .ok (rs, r) => classWithin f n negated (d.add rs 0) r
where
  /-- A class after its bracket. A closing bracket that comes first stands for itself. -/
  openClass (f : Flags) (n : Nat) (s : List Char) : Parsed (Ranges × Nat) :=
    let s := skip f s
    let (negated, s) := match s with
      | '^' :: s => (true, skip f s)
      | s => (false, s)
    let (d, s) := leadingDashes f s.length .start s
    match d.count, s with
    | 0, ']' :: s => classWithin f n negated (d.add (Ranges.single ']') 0) s
    | _, s => classWithin f n negated d s

def charClass (f : Flags) (s : List Char) : Parsed (Ranges × Nat) :=
  classWithin.openClass f (s.length + 1) s

def countDigits (f : Flags) : Nat → List Char → List Char × List Char
  | 0, s => ([], s)
  | n + 1, s =>
    match s with
    | [] => ([], [])
    | c :: r =>
      if c.isDigit then
        let (ds, r) := countDigits f n (skip f r)
        (c :: ds, r)
      else ([], s)

def count? (f : Flags) (s : List Char) : Option (Nat × List Char) :=
  let s := s.dropWhile isBlankChar
  let (ds, r) := countDigits f s.length s
  let n := ds.foldl (fun n c => n * 10 + (c.toNat - 48)) 0
  if ds.isEmpty || Nat.pow 2 32 ≤ n then none else some (n, r.dropWhile isBlankChar)

def bounds (f : Flags) (s : List Char) : Parsed (Nat × Option Nat) :=
  match count? f (skip f s) with
  | none => .error .badCount
  | some (lo, '\x7d' :: r) => .ok ((lo, some lo), r)
  | some (lo, ',' :: r) =>
    match skip f r with
    | '\x7d' :: r => .ok ((lo, none), r)
    | r =>
      match count? f r with
      | some (hi, '\x7d' :: r) => if lo ≤ hi then .ok ((lo, some hi), r) else .error .badCount
      | _ => .error .badCount
  | some _ => .error .badCount

def setFlag (on : Bool) (f : Flags) : Char → Option Flags
  | 'i' => some { f with ignoreCase := on }
  | 'm' => some { f with manyLines := on }
  | 's' => some { f with dotAll := on }
  | 'U' => some { f with lazy := on }
  | 'u' => some { f with unicode := on }
  | 'x' => some { f with spaced := on }
  | 'R' => some { f with wide := on }
  | _ => none

/-- Flags up to a colon or a closing bracket, which is left; `seen` holds the letters so far. -/
def flagsWithin (on : Bool) (seen : List Char) (f : Flags) : List Char → Parsed Flags
  | [] => .error .badFlags
  | c :: s =>
    if c = ':' || c = ')' then
      if seen.head? = some '-' then .error .badFlags else .ok (f, c :: s)
    else if seen.contains c then .error .badFlags
    else if c = '-' then flagsWithin false (c :: seen) f s
    else match setFlag on f c with
      | none => .error .badFlags
      | some f => flagsWithin on (c :: seen) f s

def groupName (names : List (String × Nat)) (s : List Char) : Parsed String :=
  let name := s.takeWhile (· != '>')
  let key := String.ofList name
  if !isGroupName name || (s.drop name.length).isEmpty || (names.lookup key).isSome then
    .error .badName
  else .ok (key, s.drop (name.length + 1))

inductive GroupHead where
  | flags (f : Flags)
  | plain (f : Flags)
  | numbered (names : List (String × Nat))

def groupHead (st : State) (s : List Char) : Parsed GroupHead :=
  let named (s : List Char) : Parsed GroupHead :=
    (groupName st.names s).map fun (name, r) =>
      (.numbered (st.names ++ [(name, st.groups + 1)]), r)
  match skip st.flags s with
  | '?' :: '=' :: _ => .error .lookAround
  | '?' :: '!' :: _ => .error .lookAround
  | '?' :: '<' :: '=' :: _ => .error .lookAround
  | '?' :: '<' :: '!' :: _ => .error .lookAround
  | '?' :: 'P' :: '<' :: r => named r
  | '?' :: '<' :: r => named r
  | '?' :: r =>
    match flagsWithin true [] st.flags r with
    | .error e => .error e
    | .ok (f, ')' :: r') =>
      if r.head? = some ')' then .error .nothingToRepeat else .ok (.flags f, r')
    | .ok (f, r) => .ok (.plain f, r.drop 1)
  | r => .ok (.numbered st.names, r)

/-- A part of a pattern as written. Flags are a part of their own, which matches the empty text. The
depth tells how many loops, groups, classes, rows and choices lie within one another. -/
structure Part where
  expr : Option Expr
  depth : Nat

def depthOf (ps : List Part) : Nat :=
  match ps with
  | [p] => p.depth
  | [] => 0
  | ps => ps.foldl (fun n p => max n p.depth) 0 + 1

/-- The part read so far of a choice, last first: earlier branches, and the parts of the current
one. -/
structure Draft where
  branches : List Part
  parts : List Part

namespace Draft

def start : Draft := ⟨[], []⟩

def branch (d : Draft) : Part :=
  ⟨some (Expr.inRow (d.parts.reverse.filterMap (·.expr))), depthOf d.parts⟩

def whole (d : Draft) : Part :=
  let bs := d.branch :: d.branches
  ⟨some (Expr.choice (bs.reverse.filterMap (·.expr))), depthOf bs⟩

def nextBranch (d : Draft) : Draft := ⟨d.branch :: d.branches, []⟩

def add (d : Draft) (e : Expr) (depth : Nat) : Draft :=
  { d with parts := ⟨some e, depth⟩ :: d.parts }

def addFlags (d : Draft) : Draft := { d with parts := ⟨none, 0⟩ :: d.parts }

/-- Puts a loop around the last part; a question mark after the loop makes it the other way
greedy. -/
def repeated (d : Draft) (f : Flags) (lo : Nat) (hi : Option Nat) (s : List Char) : Parsed Draft :=
  match d.parts with
  | ⟨some e, depth⟩ :: ps =>
    let (greedy, r) := match s with
      | '?' :: r => (false, r)
      | r => (true, r)
    let loop := Expr.repeated e lo hi (greedy != f.lazy)
    .ok ({ d with parts := ⟨some loop, depth + 1⟩ :: ps }, r)
  | _ => .error .nothingToRepeat

def addBounds (d : Draft) (f : Flags) (s : List Char) : Parsed Draft :=
  (bounds f s).bind fun ((lo, hi), r) => d.repeated f lo hi (skip f r)

def addClass (d : Draft) (f : Flags) (s : List Char) : Parsed Draft :=
  (charClass f s).map fun ((rs, depth), r) => (d.add (Expr.ofSet rs) depth, r)

def addEscape (d : Draft) (f : Flags) (s : List Char) : Parsed Draft :=
  (escape f s).bind fun (x, r) => (x.expr f).map fun e => (d.add e 0, r)

end Draft

def dot (f : Flags) : Except Fault Expr :=
  (f.sound (if f.dotAll then Ranges.full
    else Ranges.complement (if f.wide then [(10, 10), (13, 13)] else [(10, 10)]))).map Expr.one

def lineStartLook (f : Flags) : Look :=
  if !f.manyLines then .textStart else if f.wide then .lineStartWide else .lineStart

def lineEndLook (f : Flags) : Look :=
  if !f.manyLines then .textEnd else if f.wide then .lineEndWide else .lineEnd

def choiceOf : Nat → State → Draft → List Char → Except Fault (Part × State × List Char)
  | 0, _, _, _ => .error .tooLarge
  | n + 1, st, d, s =>
    let f := st.flags
    let next (r : Parsed Draft) :=
      match r with
      | .error e => .error e
      | .ok (d, r) => choiceOf n st d r
    match skip f s with
    | [] => .ok (d.whole, st, [])
    | ')' :: r => .ok (d.whole, st, ')' :: r)
    | '|' :: r => choiceOf n st d.nextBranch r
    | '(' :: r =>
      match groupHead st r with
      | .error e => .error e
      | .ok (.flags f, r) => choiceOf n { st with flags := f } d.addFlags r
      | .ok (head, r) =>
        let index := st.groups + 1
        let inner := match head with
          | .plain f => { st with flags := f }
          | .numbered names => { st with groups := index, names }
          | .flags f => { st with flags := f }
        match choiceOf n inner .start r with
        | .error e => .error e
        | .ok (p, st', ')' :: r) =>
          let e := p.expr.getD .empty
          let e := match head with
            | .numbered _ => .group index e
            | _ => e
          choiceOf n { st' with flags := f } (d.add e (p.depth + 1)) r
        | .ok _ => .error .groupNotClosed
    | '[' :: r => next (d.addClass f r)
    | '*' :: r => next (d.repeated f 0 none r)
    | '+' :: r => next (d.repeated f 1 none r)
    | '?' :: r => next (d.repeated f 0 (some 1) r)
    | '\x7b' :: r => next (d.addBounds f r)
    | '\\' :: r => next (d.addEscape f r)
    | '.' :: r => next ((dot f).map fun e => (d.add e 0, r))
    | '^' :: r => next (.ok (d.add (.look (lineStartLook f)) 0, r))
    | '$' :: r => next (.ok (d.add (.look (lineEndLook f)) 0, r))
    | c :: r => next (.ok (d.add (oneChar f c) 0, r))

structure Parse where
  expr : Expr
  groups : Nat
  names : List (String × Nat)

def depthLimit : Nat := 250

def parse (s : String) : Except Fault Parse :=
  let cs := s.toList
  match choiceOf (cs.length + 1) ⟨Flags.initial, 0, []⟩ .start cs with
  | .error e => .error e
  | .ok (_, _, _ :: _) => .error .groupNotOpened
  | .ok (p, st, []) =>
    if depthLimit < p.depth then .error .tooDeep
    else .ok ⟨p.expr.getD .empty, st.groups, st.names⟩

end FragmentMerge.Pattern

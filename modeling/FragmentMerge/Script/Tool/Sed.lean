import FragmentMerge.Script.Tool.Basic
import FragmentMerge.Script.Tool.Regular

/-! `sed`: edits rows one by one by a list of commands, each of which may be bound to some of the rows. -/

namespace FragmentMerge.Script.Tool

open Job

inductive SedAddress where
  | number (n : Nat)
  | last
  /-- Rows with a find; none stands for the last expression used. -/
  | found (e : Option Regular)
  | every (first step : Nat)

inductive SedEnd where
  | row (a : SedAddress)
  | after (n : Nat)
  | multiple (n : Nat)

structure SedRange where
  start : Option SedAddress
  stop : Option SedEnd
  negated : Bool

inductive SedPart where
  | text (c : Char)
  | group (n : Nat)
  /-- From here on letters change: to capitals, to small ones, or no longer; or the next one does. -/
  | letters (kind : Char)
  deriving DecidableEq, Repr

def SedPart.missing? (groups : Option Nat) : SedPart → Option Nat
  | group n => if groups.any (· < n) then some n else none
  | _ => none

inductive SedAction where
  | opened (close : Nat)
  | closed
  | substitute (e : Option Regular) (parts : List SedPart) (all : Bool) (number : Nat) (prints : Bool)
    (file : Option String)
  | translate (pairs : List (Char × Char))
  | append (s : List Char)
  | insert (s : List Char)
  | change (s : List Char)
  | branch (condition : Char) (label : String)
  | label (name : String)
  | readFile (f : String)
  | writeFile (f : String)
  | quit (prints : Bool) (status : Nat)
  /-- Shows the row so that every character is seen, in lines of a length. -/
  | show (width : Option Nat)
  | plain (letter : Char)

structure SedCommand where
  range : SedRange
  action : SedAction

structure SedReading where
  rest : List Char
  read : Nat
  dialect : Dialect
  commands : Array SedCommand
  /-- The brackets that are open, latest first. -/
  opened : List Nat

abbrev SedRead := EStateM String SedReading

namespace SedRead

def fail (message : String) : SedRead α := do
  throw s!"-e expression #1, char {(← get).read}: {message}"

def peek : SedRead (Option Char) := do pure (← get).rest.head?

def take : SedRead (Option Char) := do
  let s ← get
  match s.rest with
  | [] => pure none
  | c :: rest => do
    set { s with rest, read := s.read + 1 }
    pure (some c)

def dropWhile (p : Char → Bool) : SedRead Unit :=
  modify fun s =>
    let rest := s.rest.dropWhile p
    { s with rest, read := s.read + (s.rest.length - rest.length) }

def takeWhile (p : Char → Bool) : SedRead (List Char) := do
  let s ← get
  let part := s.rest.takeWhile p
  set { s with rest := s.rest.drop part.length, read := s.read + part.length }
  pure part

def takeNumber : SedRead (Option Nat) := do
  let ds ← takeWhile Char.isDigit
  pure (if ds.isEmpty then none else some (digits 10 0 ds).1)

/-- Takes a text up to a delimiter. In an expression the delimiter may stand in a set. -/
def delimited (delimiter : Char) (isExpression : Bool) : Nat → Bool → SedRead (Option (List Char))
  | 0, _ => pure none
  | n + 1, inSet => do
    match ← take with
    | none => pure none
    | some c =>
      let more (cs : List Char) (inSet : Bool) : SedRead (Option (List Char)) := do
        pure ((← delimited delimiter isExpression n inSet).map (cs ++ ·))
      if c == '\\' && !inSet then
        match ← take with
        | none => pure none
        | some d =>
          if d == delimiter then more (if isExpression && d == '|' then ['\\', d] else [d]) false
          else if isExpression && d == 'n' then more ['\n'] false
          else more ['\\', d] false
      else if c == delimiter && !inSet then pure (some [])
      else if c == '\n' && isExpression && !inSet then pure none
      else if isExpression && c == '[' && !inSet then do
        let lead ← takeWhile (· == '^')
        let bracket ← if (← peek) = some ']' then do
            let _ ← take
            pure [']']
          else pure []
        more (c :: lead ++ bracket) true
      else more [c] (inSet && c != ']')

def expression (s : List Char) (ignoresCase : Bool) : SedRead (Option Regular) := do
  if s.isEmpty then pure none
  else
    let d := (← get).dialect
    match Regular.parse { d with ignoresCase } s with
    | .ok e => pure (some e)
    | .error m => fail m

def address? : SedRead (Option SedAddress) := do
  match ← peek with
  | some '$' => do
    let _ ← take
    pure (some .last)
  | some c =>
    if c.isDigit then
      let n := (← takeNumber).getD 0
      if (← peek) = some '~' then
        let _ ← take
        pure (some (.every n ((← takeNumber).getD 0)))
      else pure (some (.number n))
    else if c == '/' || c == '\\' then
      let _ ← take
      let delimiter ← if c == '\\' then do pure ((← take).getD '/') else pure '/'
      match ← delimited delimiter true ((← get).rest.length + 1) false with
      | none => fail "unterminated address regex"
      | some s => do
        let ignoresCase ← if (← peek) = some 'I' then do
            let _ ← take
            pure true
          else pure false
        pure (some (.found (← expression s ignoresCase)))
    else pure none
  | none => pure none

def range : SedRead SedRange := do
  let start ← address?
  dropWhile isSpace
  let stop ← if start.isSome && (← peek) = some ',' then do
      let _ ← take
      dropWhile isSpace
      match ← peek with
      | some '+' => do
        let _ ← take
        pure (some (SedEnd.after ((← takeNumber).getD 0)))
      | some '~' => do
        let _ ← take
        pure (some (SedEnd.multiple ((← takeNumber).getD 0)))
      | _ =>
        match ← address? with
        | some a => pure (some (SedEnd.row a))
        | none => do
          let _ ← take
          fail "unexpected `,'"
    else pure none
  dropWhile isSpace
  let bangs ← takeWhile (· == '!')
  dropWhile isSpace
  pure ⟨start, stop, !bangs.isEmpty⟩

def parts : List Char → List SedPart
  | '\\' :: c :: s =>
    if c.isDigit then .group (c.toNat - 48) :: parts s
    else if "ULEul".toList.contains c then .letters c :: parts s
    else
      let named := [('n', '\n'), ('t', '\t'), ('r', '\r'), ('a', '\x07'), ('f', '\x0c'), ('v', '\x0b')]
      .text ((named.lookup c).getD c) :: parts s
  | '&' :: s => .group 0 :: parts s
  | c :: s => .text c :: parts s
  | [] => []

/-- The text of a command up to the end of its line; a backslash keeps the line end. -/
def textOf : Nat → SedRead (List Char)
  | 0 => pure []
  | n + 1 => do
    match ← take with
    | none => pure []
    | some '\n' => pure []
    | some '\\' =>
      match ← take with
      | none => pure []
      | some c => do pure (c :: (← textOf n))
    | some c => do pure (c :: (← textOf n))

def addedText : SedRead (List Char) := do
  dropWhile fun c => c == ' ' || c == '\t'
  if (← peek) = some '\\' then
    let _ ← take
    dropWhile fun c => c == ' ' || c == '\t'
    if (← peek) = some '\n' then
      let _ ← take
  if (← get).rest.isEmpty then fail "expected \\ after `a', `c' or `i'"
  pure ((← textOf ((← get).rest.length + 1)) ++ ['\n'])

def fileName : SedRead String := do
  dropWhile fun c => c == ' ' || c == '\t'
  let name ← takeWhile (· != '\n')
  if name.isEmpty then fail "missing filename in r/R/w/W commands"
  pure (String.ofList name)

structure SedFlags where
  all : Bool
  number : Option Nat
  prints : Bool
  ignoresCase : Bool
  file : Option String

def flags : Nat → SedFlags → SedRead SedFlags
  | 0, f => pure f
  | n + 1, f => do
    match ← peek with
    | some 'g' => do
      let _ ← take
      if f.all then fail "multiple `g' options to `s' command"
      flags n { f with all := true }
    | some 'p' => do
      let _ ← take
      if f.prints then fail "multiple `p' options to `s' command"
      flags n { f with prints := true }
    | some ' ' => do
      let _ ← take
      flags n f
    | some 'i' => do
      let _ ← take
      flags n { f with ignoresCase := true }
    | some 'I' => do
      let _ ← take
      flags n { f with ignoresCase := true }
    | some 'w' => do
      let _ ← take
      pure { f with file := some (← fileName) }
    | some c =>
      if c.isDigit then
        let _ ← take
        if f.number.isSome then fail "multiple number options to `s' command"
        let (k, _) := digits 10 0 (c :: (← takeWhile Char.isDigit))
        if k == 0 then fail "number option to `s' command may not be zero"
        flags n { f with number := some k }
      else pure f
    | none => pure f

def finish (unknown : String) : SedRead Unit := do
  dropWhile fun c => c == ' ' || c == '\t'
  match ← peek with
  | none => pure ()
  | some '\x7d' => pure ()
  | some '#' => pure ()
  | some c => do
    let _ ← take
    if c != ';' && c != '\n' then fail unknown

def extraCharacters : String := "extra characters after command"

def substitution : SedRead SedAction := do
  match ← take with
  | none => fail "unterminated `s' command"
  | some delimiter =>
    let limit := (← get).rest.length + 1
    match ← delimited delimiter true limit false with
    | none => fail "unterminated `s' command"
    | some s =>
      match ← delimited delimiter false limit false with
      | none => fail "unterminated `s' command"
      | some r => do
        let f ← flags limit ⟨false, none, false, false, none⟩
        if f.file.isNone then finish "unknown option to `s'"
        let e ← expression s f.ignoresCase
        let parts := parts r
        match parts.findSome? (SedPart.missing? (e.map (·.groups))) with
        | some n => fail s!"invalid reference \\{n} on `s' command's RHS"
        | none => pure (.substitute e parts f.all (f.number.getD 1) f.prints f.file)

def plainText : List Char → List Char
  | '\\' :: 'n' :: s => '\n' :: plainText s
  | '\\' :: c :: s => c :: plainText s
  | c :: s => c :: plainText s
  | [] => []

def translation : SedRead SedAction := do
  match ← take with
  | none => fail "unterminated `y' command"
  | some delimiter =>
    let limit := (← get).rest.length + 1
    match ← delimited delimiter false limit false, ← delimited delimiter false limit false with
    | some a, some b => do
      let (a, b) := (plainText a, plainText b)
      if a.length != b.length then fail "strings for `y' command are different lengths"
      finish extraCharacters
      pure (.translate (a.zip b))
    | _, _ => fail "unterminated `y' command"

/-- The last of the addresses that rows cannot have: a row nought, if it is not to find the end of its
range in the first row. -/
def checkRange (r : SedRange) : SedRead Unit := do
  match r.start, r.stop with
  | some (.number 0), some (.row (.found _)) => pure ()
  | some (.number 0), _ => fail "invalid usage of line address 0"
  | _, _ => pure ()

def labelName : SedRead String := do
  dropWhile fun c => c == ' ' || c == '\t'
  let name ← takeWhile fun c => c != '\n' && c != ';'
  finish extraCharacters
  pure (String.ofList (name.reverse.dropWhile isSpace).reverse)

def action (c : Char) : SedRead SedAction := do
  match c with
  | 's' => substitution
  | 'y' => translation
  | 'a' => do pure (.append (← addedText))
  | 'i' => do pure (.insert (← addedText))
  | 'c' => do pure (.change (← addedText))
  | ':' => do
    if (← get).rest.all isSpace then fail "\":\" lacks a label"
    pure (.label (← labelName))
  | 'b' => do pure (.branch 'b' (← labelName))
  | 't' => do pure (.branch 't' (← labelName))
  | 'T' => do pure (.branch 'T' (← labelName))
  | 'r' => do pure (.readFile (← fileName))
  | 'w' => do pure (.writeFile (← fileName))
  | c =>
    if c == 'q' || c == 'Q' then
      dropWhile fun c => c == ' ' || c == '\t'
      let n := (← takeNumber).getD 0
      finish extraCharacters
      pure (.quit (c == 'q') n)
    else if c == 'l' then
      dropWhile fun c => c == ' ' || c == '\t'
      let n ← takeNumber
      finish extraCharacters
      pure (.show n)
    else if "pPdDnNgGhHxz=".toList.contains c then
      finish extraCharacters
      pure (.plain c)
    else fail s!"unknown command: `{c}'"

def add (r : SedRange) (a : SedAction) : SedRead Unit :=
  modify fun s => { s with commands := s.commands.push ⟨r, a⟩ }

def commands : Nat → SedRead Unit
  | 0 => pure ()
  | n + 1 => do
    dropWhile fun c => isSpace c || c == ';'
    match ← peek with
    | none =>
      match (← get).opened with
      | [] => pure ()
      | _ => throw "-e expression #1, char 0: unmatched `\x7b'"
    | some '#' => do
      dropWhile (· != '\n')
      commands n
    | some _ => do
      let r ← range
      match ← take with
      | none => fail "missing command"
      | some '\x7b' => do
        let i := (← get).commands.size
        add r (.opened 0)
        modify fun s => { s with opened := i :: s.opened }
        commands n
      | some '\x7d' => do
        if r.start.isSome then fail "\x7d doesn't want any addresses"
        match (← get).opened with
        | [] => fail "unexpected `\x7d'"
        | i :: more => do
          let close := (← get).commands.size
          add ⟨none, none, false⟩ .closed
          modify fun s =>
            let range := (s.commands[i]?.map (·.range)).getD ⟨none, none, false⟩
            { s with opened := more, commands := s.commands.setIfInBounds i ⟨range, .opened close⟩ }
          finish extraCharacters
          commands n
      | some c => do
        checkRange r
        if c == ':' && r.start.isSome then fail ": doesn't want any addresses"
        add r (← action c)
        commands n

end SedRead

/-- The state of the editor. A range that has begun is kept with the row that it ends at, if that is
known. -/
structure Editing where
  rows : List (List Char × Bool)
  number : Nat
  pattern : List Char
  hasEnd : Bool
  hold : List Char
  active : List (Nat × Option Nat)
  replaced : Bool
  last : Option Regular
  out : List Char
  owed : Bool
  queue : List (List Char)
  /-- What ends a row. -/
  ending : Char
  writes : List (String × List Char)
  ended : Option Nat

namespace Editing

/-- Puts out a text; an end of a row that is still owed comes first. -/
def put (e : Editing) (s : List Char) (hasEnd : Bool) : Editing :=
  let lead := if e.owed then [e.ending] else []
  { e with out := e.out ++ lead ++ s ++ (if hasEnd then [e.ending] else []), owed := !hasEnd }

def putText (e : Editing) (s : List Char) : Editing :=
  if s.isEmpty then e
  else
    let lead := if e.owed then [e.ending] else []
    { e with out := e.out ++ lead ++ s, owed := false }

def flushQueue (e : Editing) : Editing :=
  { e.queue.foldl putText e with queue := [] }

def isLast (e : Editing) : Bool := e.rows.isEmpty

def next? (e : Editing) : Option (List Char × Editing) :=
  match e.rows with
  | [] => none
  | (r, hasEnd) :: rows => some (r, { e with rows, number := e.number + 1, hasEnd })

def hits (e : Editing) : SedAddress → Bool × Editing
  | .number n => (e.number == n, e)
  | .last => (e.isLast, e)
  | .every first step =>
    (if step == 0 then e.number == first
      else first ≤ e.number && (e.number - first) % step == 0, e)
  | .found r =>
    match r.or e.last with
    | some r => (r.isIn e.pattern, { e with last := some r })
    | none => (false, e)

def selects (e : Editing) (i : Nat) (r : SedRange) : Bool × Editing :=
  let (hit, e) : Bool × Editing :=
    match r.start, r.stop with
    | none, _ => (true, e)
    | some a, none => e.hits a
    | some a, some stop =>
      match e.active.lookup i with
      | some known =>
        let close (e : Editing) : Editing := { e with active := e.active.filter (·.1 != i) }
        match known with
        | some n => if e.number ≥ n then (e.number == n, close e) else (true, e)
        | none =>
          match stop with
          | .row s =>
            let (ends, e) := e.hits s
            (true, if ends then close e else e)
          | _ => (true, close e)
      | none =>
        let (begins, e) := e.hits a
        if !begins then (false, e)
        else
          let begin (known : Option Nat) : Bool × Editing :=
            (true, { e with active := (i, known) :: e.active })
          match stop with
          | .row (.number n) => if n ≤ e.number then (true, e) else begin (some n)
          | .row _ => begin none
          | .after n => if n == 0 then (true, e) else begin (some (e.number + n))
          | .multiple n =>
            if n == 0 || e.number % n == 0 then (true, e) else begin (some ((e.number / n + 1) * n))
  (hit != r.negated, e)

/-- Changes the letters of a text as the parts before it ask for. -/
def recased (kind once : Option Char) (s : List Char) : List Char :=
  let all (s : List Char) : List Char :=
    match kind with
    | some 'U' => s.map Char.toUpper
    | some 'L' => s.map Char.toLower
    | _ => s
  match once, s with
  | some 'u', c :: s => c.toUpper :: all s
  | some 'l', c :: s => c.toLower :: all s
  | _, s => all s

def replacement (groups : List (Option (List Char))) (kind once : Option Char) :
    List SedPart → List Char
  | [] => []
  | .letters k :: ps =>
    if k == 'E' then replacement groups none none ps
    else if k == 'u' || k == 'l' then replacement groups kind (some k) ps
    else replacement groups (some k) once ps
  | .text c :: ps => recased kind once [c] ++ replacement groups kind none ps
  | .group n :: ps =>
    let s := ((groups[n]?).getD none).getD []
    recased kind once s ++ replacement groups kind (if s.isEmpty then once else none) ps

/-- Replaces finds from the given number on; gives whether there was one. An empty find directly behind
another one does not count. -/
def substituted (r : Regular) (parts : List SedPart) (all : Bool) :
    Nat → Nat → Option Char → Bool → List Char → List Char × Bool
  | 0, _, _, _, s => (s, false)
  | fuel + 1, number, left, touches, s =>
    match r.find? left s with
    | none => (s, false)
    | some f =>
      let before := s.take f.start
      let part := (s.drop f.start).take f.length
      let after := s.drop (f.start + f.length)
      let skips := touches && f.start == 0 && f.length == 0
      let counts := !skips && number ≤ 1
      let new := if counts then replacement f.groups none none parts else part
      if counts && !all then (before ++ new ++ after, true)
      else
        let number := if skips then number else number - 1
        if f.length == 0 then
          match after with
          | [] => (before ++ new, counts)
          | c :: after =>
            let (rest, hit) := substituted r parts all fuel number (some c) false after
            (before ++ new ++ c :: rest, counts || hit)
        else
          let (rest, hit) := substituted r parts all fuel number part.getLast? true after
          (before ++ new ++ rest, counts || hit)

def labelPlace (cs : Array SedCommand) (name : String) : Nat :=
  if name.isEmpty then cs.size
  else ((cs.toList.findIdx? fun c =>
    match c.action with
    | .label n => n == name
    | _ => false)).getD cs.size

def escaped (c : Char) : List Char :=
  let named := [('\\', "\\\\"), ('\x07', "\\a"), ('\x08', "\\b"), ('\x0c', "\\f"), ('\n', "\\n"), ('\r', "\\r"),
    ('\t', "\\t"), ('\x0b', "\\v")]
  match named.lookup c with
  | some s => s.toList
  | none =>
    if ' ' ≤ c && c ≤ '~' then [c]
    else
      let ds := Nat.toDigits 8 c.toNat
      '\\' :: List.replicate (3 - ds.length) '0' ++ ds

/-- A row with every character shown, in lines of a width; one that goes on ends in a backslash. -/
def visible (width : Nat) (s : List Char) : List Char :=
  let (out, _) := s.foldl (fun (out, n) c =>
    let t := escaped c
    if 1 < width && width - 1 < n + t.length then (t.reverse ++ '\n' :: '\\' :: out, t.length)
    else (t.reverse ++ out, n + t.length)) (([] : List Char), 0)
  out.reverse ++ ['$', '\n']

def addWrite (e : Editing) (f : String) (s : List Char) : Editing :=
  let old := (e.writes.lookup f).getD []
  { e with writes := (f, old ++ s) :: e.writes.filter (·.1 != f) }

inductive Course where
  | next
  | jump (i : Nat)
  /-- The end of the cycle, with or without printing the row. -/
  | cycle (prints : Bool)
  /-- A new cycle that keeps the row. -/
  | again

def act (cs : Array SedCommand) (quiet : Bool) (read : String → List Char) (r : SedRange) (e : Editing) :
    SedAction → Editing × Course
  | .opened _ => (e, .next)
  | .closed => (e, .next)
  | .label _ => (e, .next)
  | .substitute re parts all number prints file =>
    match re.or e.last with
    | none => (e, .next)
    | some re =>
      let e := { e with last := some re }
      let (s, hit) := substituted re parts all (e.pattern.length + 2) number none false e.pattern
      if !hit then (e, .next)
      else
        let e := { e with pattern := s, replaced := true }
        let e := if prints then e.put s e.hasEnd else e
        let e := match file with
          | some f => if f == "/dev/stdout" then e.put s true else e.addWrite f (s ++ ['\n'])
          | none => e
        (e, .next)
  | .translate pairs =>
    ({ e with pattern := e.pattern.map fun c => (pairs.lookup c).getD c }, .next)
  | .append s => ({ e with queue := e.queue ++ [s] }, .next)
  | .insert s => (e.putText s, .next)
  | .change s =>
    let isRange := r.stop.isSome && !r.negated
    let ends := !isRange || !(e.active.any fun _ => true)
    (if ends then e.putText s else e, .cycle false)
  | .branch condition name =>
    let place := labelPlace cs name
    match condition with
    | 'b' => (e, .jump place)
    | 't' => if e.replaced then ({ e with replaced := false }, .jump place) else (e, .next)
    | _ => if e.replaced then ({ e with replaced := false }, .next) else (e, .jump place)
  | .readFile f => ({ e with queue := e.queue ++ [read f] }, .next)
  | .writeFile f =>
    (if f == "/dev/stdout" then e.put e.pattern true else e.addWrite f (e.pattern ++ ['\n']), .next)
  | .show width => (e.putText (visible (width.getD 70) e.pattern), .next)
  | .quit prints status => ({ e with ended := some status }, .cycle prints)
  | .plain c =>
    match c with
    | 'p' => (e.put e.pattern e.hasEnd, .next)
    | 'P' => (e.put (e.pattern.takeWhile (· != '\n')) true, .next)
    | 'd' => (e, .cycle false)
    | 'D' =>
      if e.pattern.contains '\n' then
        ({ e with pattern := (e.pattern.dropWhile (· != '\n')).drop 1 }, .again)
      else (e, .cycle false)
    | 'n' =>
      if e.isLast then ({ e with ended := some 0 }, .cycle true)
      else
        let e := if quiet then e else e.put e.pattern e.hasEnd
        match e.flushQueue.next? with
        | some (s, e) => ({ e with pattern := s }, .next)
        | none => (e, .next)
    | 'N' =>
      match e.flushQueue.next? with
      | some (s, e) => ({ e with pattern := e.pattern ++ '\n' :: s }, .next)
      | none => ({ e with ended := some 0 }, .cycle true)
    | 'g' => ({ e with pattern := e.hold }, .next)
    | 'G' => ({ e with pattern := e.pattern ++ '\n' :: e.hold }, .next)
    | 'h' => ({ e with hold := e.pattern }, .next)
    | 'H' => ({ e with hold := e.hold ++ '\n' :: e.pattern }, .next)
    | 'x' => ({ e with pattern := e.hold, hold := e.pattern }, .next)
    | 'z' => ({ e with pattern := [] }, .next)
    | '=' => (e.putText ((toString e.number).toList ++ ['\n']), .next)
    | _ => (e, .next)

/-- Runs the commands from a place on; a cycle ends after the last one. -/
def cycle (cs : Array SedCommand) (quiet : Bool) (read : String → List Char) :
    Nat → Nat → Editing → Editing
  | 0, _, e => e
  | fuel + 1, i, e =>
    let close (prints : Bool) (e : Editing) : Editing :=
      let e := if prints && !quiet then e.put e.pattern e.hasEnd else e
      let e := e.flushQueue
      if e.ended.isSome then e
      else match e.next? with
      | none => e
      | some (s, e) => cycle cs quiet read fuel 0 { e with pattern := s, replaced := false }
    match cs[i]? with
    | none => close true e
    | some c =>
      let (hit, e) := e.selects i c.range
      if !hit then
        match c.action with
        | .opened n => cycle cs quiet read fuel n e
        | _ => cycle cs quiet read fuel (i + 1) e
      else
        match act cs quiet read c.range e c.action with
        | (e, .next) => cycle cs quiet read fuel (i + 1) e
        | (e, .jump n) => cycle cs quiet read fuel n e
        | (e, .cycle prints) => close prints e
        | (e, .again) => cycle cs quiet read fuel 0 e.flushQueue

def begun (cs : Array SedCommand) : List (Nat × Option Nat) :=
  (cs.toList.zipIdx).filterMap fun (c, i) =>
    match c.range.start with
    | some (.number 0) => some (i, none)
    | _ => none

def run (cs : Array SedCommand) (quiet : Bool) (read : String → List Char) (e : Editing) : Editing :=
  match e.next? with
  | none => e
  | some (s, e) =>
    cycle cs quiet read ((cs.size + 2) * (e.rows.length + 2) * 64) 0
      { e with pattern := s, replaced := false }

def start (rows : List (List Char × Bool)) (ending : Char) : Editing :=
  ⟨rows, 0, [], true, [], [], false, none, [], false, [], ending, [], none⟩

end Editing

/-- The rows of a text, each with whether it has an end. -/
def sedRows (ending : Char) (s : List Char) : List (List Char × Bool) :=
  let rs := s.splitOn ending
  (rs.dropLast.map fun r => (r, true)) ++
    ((rs.getLast?.filter (!·.isEmpty)).map fun r => (r, false)).toList

def missingLabel? (cs : Array SedCommand) (c : SedCommand) : Option String :=
  match c.action with
  | .branch _ name =>
    let isThere := name.isEmpty || cs.any fun c =>
      match c.action with
      | .label n => n == name
      | _ => false
    if isThere then none else some name
  | _ => none

def sedOptions : Options :=
  ⟨"nErsuz", "efl", [("quiet", 'n'), ("silent", 'n'), ("expression", 'e'), ("file", 'f'),
    ("regexp-extended", 'E'), ("separate", 's'), ("posix", 'p')]⟩

/-- Takes out the option that edits files in place, with the ending that the old files get. -/
def inPlace? : List String → Option String × List String
  | [] => (none, [])
  | a :: rest =>
    let (found, rest) := inPlace? rest
    match a.toList with
    | ['-', '-'] => (none, a :: rest)
    | '-' :: 'i' :: ending => (some (String.ofList ending), rest)
    | '-' :: 'n' :: 'i' :: ending => (some (String.ofList ending), "-n" :: rest)
    | '-' :: 'E' :: 'i' :: ending => (some (String.ofList ending), "-E" :: rest)
    | '-' :: 'r' :: 'i' :: ending => (some (String.ofList ending), "-E" :: rest)
    | _ =>
      if a == "--in-place" then (some "", rest)
      else if a.startsWith "--in-place=" then (some (String.ofList (a.toList.drop 11)), rest)
      else (found, a :: rest)

def writeText (f : String) (s : List Char) : Job Unit := do
  if f == "/dev/stdout" then printChars s
  else if f != "/dev/null" then
    match ← change fun d => d.write (Octet.decode f) (Content.ofBytes (Octet.toBytes s)) with
    | .ok () => pure ()
    | .error e => failAs 4 s!"couldn't open file {f}: {e.reason}"

def sed : Job Unit := do
  let (place, args) := inPlace? (← get).call.args
  modify fun b => { b with call := { b.call with args } }
  let (given, operands) ← options sedOptions
  let mut texts : List (List Char) := []
  for g in given do
    if g.letter == 'e' then texts := texts ++ [g.value.toList]
    if g.letter == 'f' then
      match ← operandText g.value with
      | .error e => fail s!"couldn't open file {g.value}: {e.reason}"
      | .ok s => texts := texts ++ [if s.getLast? == some '\n' then s.dropLast else s]
  let (scripts, files) ← match texts, operands with
    | [], [] => do
      setStatus 1
      note "Usage: sed [OPTION]... \x7bscript-only-if-no-other-script\x7d [input-file]...\n"
      quit
    | [], o :: os => pure ([o.toList], os)
    | scripts, os => pure (scripts, os)
  let script := List.intercalate ['\n'] scripts
  let dialect : Dialect := ⟨gives given 'E' || gives given 'r', false, true⟩
  let quiet := gives given 'n' || script.take 2 == ['#', 'n'] && (script.drop 2).head?.all (· == '\n')
  match SedRead.commands (script.length + 2) ⟨script, 0, dialect, #[], []⟩ with
  | .error m _ => fail m
  | .ok () r => do
    match r.commands.toList.findSome? (missingLabel? r.commands) with
    | some name => do
      failAs 4 s!"can't find label for jump to `{name}'"
    | none => pure ()
    let d ← disk
    let read (f : String) : List Char :=
      match d.read (Octet.decode f) with
      | .ok c => Octet.ofBytes c.bytes
      | .error _ => []
    let ending := if gives given 'z' then '\x00' else '\n'
    let separate := place.isSome || gives given 's'
    let mut batches : List (String × List (List Char × Bool)) := []
    let mut broken := false
    for f in orInput files do
      if !broken then
        match ← operandText f with
        | .error .isDirectory =>
          if place.isSome then complainAs 4 s!"couldn't edit {f}: not a regular file"
          else
            complainAs 4 s!"read error on {f}: Is a directory"
            broken := true
        | .error e => complainAs 2 s!"can't read {f}: {e.reason}"
        | .ok s => batches := batches ++ [(f, sedRows ending s)]
    if !separate then batches := [("-", batches.flatMap (·.2))]
    let mut state := { Editing.start [] ending with active := Editing.begun r.commands }
    for (f, rows) in batches do
      if state.ended.isNone then
        let e := Editing.run r.commands quiet read { state with
          rows, out := [], owed := false, number := if separate then 0 else state.number }
        state := e
        match place with
        | none => printChars e.out
        | some suffix => do
          let rest := e.rows.flatMap fun (r, hasEnd) => r ++ if hasEnd then [ending] else []
          if !suffix.isEmpty then
            let copy := if suffix.toList.contains '*' then suffix.replace "*" f else f ++ suffix
            match ← fileText f with
            | .ok s => writeText copy s
            | .error _ => pure ()
          writeText f (e.out ++ rest)
    for (f, s) in state.writes do
      writeText f s
    match state.ended with
    | some (n + 1) => setStatus (n + 1)
    | _ => pure ()

end FragmentMerge.Script.Tool

import FragmentMerge.Script.Number
import FragmentMerge.Script.Tool.Node
import FragmentMerge.Script.Wildcard

/-! Reads regular expressions as the tools write them, basic or extended. Of the finds at one place the longest
counts. -/

namespace FragmentMerge.Script

open Pattern (Ranges)

/-- How an expression is written, whether case counts, and whether loops with nothing to loop are
faults. -/
structure Dialect where
  extended : Bool
  ignoresCase : Bool
  strict : Bool

namespace Regular

structure Reading where
  groups : Nat
  rest : List Char

abbrev Read := EStateM String Reading

def swapCase (c : Char) : Char := if c.isUpper then c.toLower else c.toUpper

def oneOf (d : Dialect) (keep : Char → Bool) : Node :=
  let all := (List.range 256).map Char.ofNat
  let kept := all.filter fun c => keep c || (d.ignoresCase && keep (swapCase c))
  .one (Ranges.normal (kept.map fun c => (c.toNat, c.toNat)))

def char (d : Dialect) (c : Char) : Node := oneOf d (· == c)

def isWordChar (c : Char) : Bool := c.isAlphanum || c == '_'

def unmatchedSet : String := "Unmatched [, [^, [:, [., or [="

def setItems : Nat → Bool → List Char → Except String (List SetItem × List Char)
  | 0, _, _ => .error unmatchedSet
  | n + 1, first, s => do
    let more (item : SetItem) (r : List Char) : Except String (List SetItem × List Char) := do
      let (items, r) ← setItems n false r
      pure (item :: items, r)
    match s with
    | [] => .error unmatchedSet
    | ']' :: r => if first then more (.range ']' ']') r else pure ([], r)
    | '[' :: ':' :: r =>
      let name := r.takeWhile Char.isAlpha
      match r.drop name.length with
      | ':' :: ']' :: r =>
        if (kind? (String.ofList name)).isSome then more (.kind (String.ofList name)) r
        else .error "Invalid character class name"
      | _ => .error unmatchedSet
    | a :: '-' :: b :: r =>
      if b == ']' then more (.range a a) ('-' :: b :: r)
      else if b < a then .error "Invalid range end"
      else more (.range a b) r
    | a :: r => more (.range a a) r

def wholeSet (d : Dialect) (s : List Char) : Except String (Node × List Char) := do
  if s.isEmpty then throw "Invalid regular expression"
  let (negated, s) := match s with
    | '^' :: s => (true, s)
    | s => (false, s)
  let (items, r) ← setItems (s.length + 1) true s
  let has (c : Char) : Bool :=
    items.any (·.has c) || (d.ignoresCase && items.any (·.has (swapCase c)))
  pure (oneOf { d with ignoresCase := false } fun c => has c != negated, r)

def bounds? (s : List Char) : Option (Nat × Option Nat × List Char) :=
  let (lo, r) := digits 10 0 s
  match r with
  | ',' :: r =>
    if (r.head?.map Char.isDigit).getD false then
      let (hi, r) := digits 10 0 r
      some (lo, some hi, r)
    else some (lo, none, r)
  | r => if r.length < s.length then some (lo, some lo, r) else none

def escape? (d : Dialect) (c : Char) : Option Node :=
  match c with
  | 'w' => some (oneOf d isWordChar)
  | 'W' => some (oneOf { d with ignoresCase := false } (!isWordChar ·))
  | 's' => some (oneOf d isSpace)
  | 'S' => some (oneOf { d with ignoresCase := false } (!isSpace ·))
  | 'b' => some (.look (.edge .ascii))
  | 'B' => some (.look (.noEdge .ascii))
  | '<' => some (.look (.wordStart .ascii))
  | '>' => some (.look (.wordEnd .ascii))
  | '`' => some (.look .textStart)
  | '\'' => some (.look .textEnd)
  | 'n' => some (char d '\n')
  | 't' => some (char d '\t')
  | _ => none

/-- A sign of the dialect: written plainly in an extended expression, after a backslash in a basic
one. -/
def sign? (d : Dialect) (c : Char) (s : List Char) : Option (List Char) :=
  if d.extended then
    match s with
    | a :: r => if a == c then some r else none
    | [] => none
  else
    match s with
    | '\\' :: a :: r => if a == c then some r else none
    | _ => none

/-- The bounds of a loop after an opening brace, and what follows the closing one; none if the braces are
no loop. -/
def boundsHere (d : Dialect) (s : List Char) : Except String (Option (Nat × Option Nat × List Char)) :=
  let isLoop := !d.extended || d.strict
  match bounds? s with
  | none =>
    if s.isEmpty && isLoop then .error "Unmatched \\\x7b"
    else if isLoop || (s.head?.map Char.isDigit).getD false then .error "Invalid content of \\\x7b\\\x7d"
    else .ok none
  | some (lo, hi, r) =>
    match sign? d '\x7d' r with
    | some r =>
      if hi.any (· < lo) then .error "Invalid content of \\\x7b\\\x7d"
      else if 32767 < max lo (hi.getD 0) then .error "Regular expression too big"
      else .ok (some (lo, hi, r))
    | none =>
      if !isLoop then .ok none
      else .error (if r.isEmpty then "Unmatched \\\x7b" else "Invalid content of \\\x7b\\\x7d")

def loop (d : Dialect) (s : List Char) : Except String (Option (Nat × Option Nat × List Char)) :=
  match s with
  | '*' :: r => .ok (some (0, none, r))
  | s =>
    match sign? d '+' s, sign? d '?' s, sign? d '\x7b' s with
    | some r, _, _ => .ok (some (1, none, r))
    | none, some r, _ => .ok (some (0, some 1, r))
    | none, none, some r => boundsHere d r
    | none, none, none => .ok none

def loops (d : Dialect) : Nat → Node → List Char → Except String (Node × List Char)
  | 0, e, s => .ok (e, s)
  | n + 1, e, s => do
    match ← loop d s with
    | none => pure (e, s)
    | some (lo, hi, r) => loops d n (.loop e lo hi) r

mutual

def choice (d : Dialect) (depth : Nat) : Nat → Read Node
  | 0 => throw "Regular expression too big"
  | n + 1 => do
    let e ← row d depth n true []
    match sign? d '|' (← get).rest with
    | some r => do
      modify fun s => { s with rest := r }
      let e' ← choice d depth n
      pure (.alt e e')
    | none => pure e

def row (d : Dialect) (depth : Nat) : Nat → Bool → List Node → Read Node
  | 0, _, _ => throw "Regular expression too big"
  | n + 1, first, es => do
    let s ← get
    let more (e : Node) (r : List Char) : Read Node := do
      match loops d (r.length + 1) e r with
      | .error m => throw m
      | .ok (e, r) => do
        modify fun s => { s with rest := r }
        row d depth n false (e :: es)
    let ends (r : List Char) : Bool :=
      r.isEmpty || (sign? d '|' r).isSome || (0 < depth && (sign? d ')' r).isSome)
    if ends s.rest then pure (Node.inRow es.reverse)
    else match sign? d '(' s.rest with
    | some r => do
      let index := s.groups + 1
      set (⟨index, r⟩ : Reading)
      let e ← choice d (depth + 1) n
      match sign? d ')' (← get).rest with
      | some r => more (.group index e) r
      | none => throw (if d.extended then "Unmatched ( or \\(" else "Unmatched ( or \\(")
    | none =>
      match s.rest with
      | [] => pure (Node.inRow es.reverse)
      | '.' :: r => more (oneOf { d with ignoresCase := false } fun _ => true) r
      | '[' :: r =>
        match wholeSet d r with
        | .ok (e, r) => more e r
        | .error m => throw m
      | '^' :: r =>
        if first || d.extended then do
          modify fun s => { s with rest := r }
          row d depth n first (.look .textStart :: es)
        else more (char d '^') r
      | '$' :: r =>
        if d.extended || ends r then do
          modify fun s => { s with rest := r }
          row d depth n first (.look .textEnd :: es)
        else more (char d '$') r
      | '*' :: r => if d.extended then bare d depth n es r else more (char d '*') r
      | ['\\'] => throw "Trailing backslash"
      | '\\' :: c :: r =>
        match escape? d c with
        | some e => more e r
        | none =>
          if c == ')' && !d.extended then throw "Unmatched ) or \\)"
          else if c.isDigit && c != '0' then
            if s.groups < c.toNat - 48 then throw "Invalid back reference"
            else more (.back (c.toNat - 48)) r
          else more (char d c) r
      | c :: r =>
        if d.extended && c == ')' && d.strict then throw "Unmatched ) or \\)"
        else if d.extended && (c == '+' || c == '?') then bare d depth n es r
        else if d.extended && c == '\x7b' && d.strict then bare d depth n es r
        else more (char d c) r

/-- A loop with nothing to loop counts for nothing. -/
def bare (d : Dialect) (depth : Nat) : Nat → List Node → List Char → Read Node
  | 0, _, _ => throw "Regular expression too big"
  | n + 1, es, r => do
    if d.strict then throw "Invalid preceding regular expression"
    modify fun s => { s with rest := r }
    row d depth n true es

end

end Regular

structure Find where
  start : Nat
  length : Nat
  groups : List (Option (List Char))

/-- An expression that has been read, with its pattern if it has no references. -/
structure Regular where
  node : Node
  groups : Nat
  pattern : Option Pattern

namespace Regular

def node? (d : Dialect) (s : List Char) : Except String (Node × Nat) :=
  match choice d 0 (4 * s.length + 8) ⟨0, s⟩ with
  | .error m _ => .error m
  | .ok e r => if r.rest.isEmpty then .ok (e, r.groups) else .error "Unmatched ) or \\)"

def ofNode (node : Node) (groups : Nat) : Regular :=
  ⟨node, groups, node.expr?.map fun e =>
    let (steps, accept) := Pattern.emit #[] .accept
    let (steps, start) := Pattern.compile e steps accept
    ⟨steps, start, groups, []⟩⟩

def parse (d : Dialect) (s : List Char) : Except String Regular :=
  (node? d s).map fun (e, groups) => ofNode e groups

def literal (d : Dialect) (s : List Char) : Node := Node.inRow (s.map (char d))

/-- Moves all threads over a character, and gives the slots of the first one that accepts. -/
def advance (p : Pattern) (c : Char) (place : Pattern.Place) (pos : Nat) (threads : List Pattern.Thread)
    (r : Pattern.Reached) : Pattern.Reached :=
  threads.foldl (fun (r : Pattern.Reached) (t : Pattern.Thread) =>
    match p.steps[t.step]? with
    | some (Pattern.Step.one set next) =>
      if set.has c then r.add p.steps place (pos + 1) ⟨next, t.slots⟩ else r
    | _ => r) r

def longest (p : Pattern) (pos : Nat) (r : Pattern.Reached) (best : Option (Nat × Pattern.Slots)) :
    List Char → Option (Nat × Pattern.Slots)
  | [] =>
    match Pattern.accepted p.steps r.threads.reverse with
    | some slots => some (pos, slots)
    | none => best
  | c :: s =>
    let threads := r.threads.reverse
    let best := match Pattern.accepted p.steps threads with
      | some slots => some (pos, slots)
      | none => best
    if threads.isEmpty then best
    else longest p (pos + 1)
      (advance p c ⟨some c, s.head?⟩ pos threads ⟨r.turn + 1, r.seen, []⟩) best s

/-- The find at the start of a text after the given character, with `n` characters before it. -/
def findHere (e : Regular) (n : Nat) (left : Option Char) (s : List Char) : Option Find :=
  match e.pattern with
  | some p =>
    let r := (Pattern.Reached.start p.steps.size).add p.steps ⟨left, s.head?⟩ 0 ⟨p.start, []⟩
    (longest p 0 r none s).map fun (length, slots) =>
      ⟨n, length, (List.range (p.groups + 1)).map fun i =>
        if i = 0 then some (s.take length) else Pattern.groupText? s slots i⟩
  | none =>
    (e.node.longest? left s).map fun t =>
      ⟨n, t.taken, (List.range (e.groups + 1)).map fun i =>
        if i = 0 then some (s.take t.taken) else t.groups.lookup i⟩

def findFrom (e : Regular) (n : Nat) (left : Option Char) : List Char → Option Find
  | [] => e.findHere n left []
  | c :: s =>
    match e.findHere n left (c :: s) with
    | some f => some f
    | none => findFrom e (n + 1) (some c) s

def find? (e : Regular) (left : Option Char) (s : List Char) : Option Find := e.findFrom 0 left s

def isIn (e : Regular) (s : List Char) : Bool := (e.find? none s).isSome

end Regular

end FragmentMerge.Script

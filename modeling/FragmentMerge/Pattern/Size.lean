import FragmentMerge.Pattern.ByteRow
import FragmentMerge.Pattern.Syntax

/-! The size of a pattern. It counts as two automata over bytes, one that reads forwards and one that
reads backwards, and neither may be larger than a limit. An automaton is laid out state after state; the
states themselves are not kept, only their number and what they take up. Where sets are read forwards the
rows come in order, so a state stays open as long as rows may share it: it has the ways on that are
settled, last first, and a range whose way on is not. Backwards, rows share the states of the bytes that
they begin with. A choice of texts is laid out as a tree that takes a byte at each step. Where a text
ends, what follows in the tree is less preferred than its end, so the texts fall into groups there. -/

namespace FragmentMerge.Pattern

/-- States that may serve again while one set is laid out. A state is filed under a hash of its content
and drives out the one that was there, so a state may be laid out twice. -/
structure Known where
  turn : Nat
  slots : Array (Option (Nat × List Nat × Nat))

namespace Known

def ofCapacity (n : Nat) : Known := ⟨0, Array.replicate n none⟩

def hash (key : List Nat) : UInt64 :=
  key.foldl (fun h x => (h ^^^ UInt64.ofNat x) * 1099511628211) 14695981039346656037

def slot (k : Known) (key : List Nat) : Nat := (hash key).toNat % k.slots.size

def find? (k : Known) (key : List Nat) : Option Nat :=
  match k.slots[k.slot key]? with
  | some (some (turn, key', state)) => if turn = k.turn && key' = key then some state else none
  | _ => none

def file (k : Known) (key : List Nat) (state : Nat) : Known :=
  { k with slots := k.slots.setIfInBounds (k.slot key) (some (k.turn, key, state)) }

def clear (k : Known) : Known := { k with turn := k.turn + 1 }

end Known

structure Automaton where
  states : Nat
  bytes : Nat
  known : Known

def sizeLimit : Nat := 10485760

namespace Automaton

/-- Adds a state that takes up some bytes more than a plain one. -/
def add (m : Automaton) (more : Nat) : Automaton :=
  { m with states := m.states + 1, bytes := m.bytes + 32 + more }

def addRanges (m : Automaton) (n : Nat) : Automaton := m.add (8 * n)

def addFork (m : Automaton) (n : Nat) : Automaton := m.add (4 * n)

def addWays (m : Automaton) (n : Nat) : Automaton := { m with bytes := m.bytes + 4 * n }

def tooLarge (m : Automaton) : Bool := sizeLimit < m.bytes

def addStates : Nat → Automaton → Automaton
  | 0, m => m
  | n + 1, m => addStates n (m.add 0)

/-- The number of a state with this content: of a known one, or of a new one. -/
def reuse (m : Automaton) (key : List Nat) (ranges : Nat) : Automaton × Nat :=
  match m.known.find? key with
  | some state => (m, state)
  | none =>
    let state := m.states
    let m := m.addRanges ranges
    ({ m with known := m.known.file key state }, state)

end Automaton

structure OpenState where
  ways : List (Nat × Nat × Nat)
  last : Option (Nat × Nat)

def OpenState.settle (s : OpenState) (next : Nat) : OpenState :=
  match s.last with
  | some (a, b) => ⟨(a, b, next) :: s.ways, none⟩
  | none => s

/-- Lays out open states, each of which leads to the one after it, and gives the number of the first. -/
def layOpen (target : Nat) : List OpenState → Automaton → Automaton × Nat
  | [], m => (m, target)
  | s :: deeper, m =>
    let (m, next) := layOpen target deeper m
    let ways := (s.settle next).ways.reverse
    m.reuse (ways.flatMap fun (a, b, next) => [a, b, next]) ways.length

def addRow (target : Nat) : List OpenState → ByteRow → Automaton → List OpenState × Automaton
  | s :: deeper, r :: row, m =>
    if s.last = some r then
      let (deeper, m) := addRow target deeper row m
      (s :: deeper, m)
    else
      let (m, next) := layOpen target deeper m
      ({ s.settle next with last := some r } :: row.map fun r => ⟨[], some r⟩, m)
  | opened, _, m => (opened, m)

def layForwards (rows : List ByteRow) (m : Automaton) : Automaton :=
  let target := m.states
  let m := m.add 0
  let m := { m with known := m.known.clear }
  let (opened, m) := rows.foldl (fun (opened, m) row => addRow target opened row m)
    ([⟨[], none⟩], m)
  (layOpen target opened m).1

def addRowBackwards (target : Nat) (m : Automaton) (row : ByteRow) : Automaton :=
  (row.foldl (fun (m, next) (a, b) => m.reuse [next, a, b] 0) (m, target)).1.addWays 1

def layBackwards (rows : List ByteRow) (m : Automaton) : Automaton :=
  let m := m.add 0
  let target := m.states
  let m := m.add 0
  rows.foldl (addRowBackwards target) { m with known := m.known.clear }

def byFirst (texts : List (List Nat)) : List (Nat × List (List Nat)) :=
  texts.foldr (fun t groups =>
    match t with
    | [] => groups
    | b :: t =>
      match groups.lookup b with
      | some ts => groups.map fun g => if g.1 = b then (b, t :: ts) else g
      | none => (b, [t]) :: groups) []

def betweenEnds : List (List Nat) → List (List (List Nat))
  | [] => [[]]
  | t :: ts =>
    match t, betweenEnds ts with
    | [], gs => [] :: gs
    | t, g :: gs => (t :: g) :: gs
    | t, [] => [[t]]

/-- Drops all but one of the texts that end before anything else. -/
def endOnce : List (List Nat) → List (List Nat)
  | [] :: [] :: ts => endOnce ([] :: ts)
  | ts => ts

/-- The states of the tree of some texts, the longest of which is shorter than `n`. -/
def layTree : Nat → List (List Nat) → Automaton → Automaton
  | 0, _, m => m
  | n + 1, texts, m =>
    if texts.all (·.isEmpty) then m
    else
      let groups := betweenEnds (endOnce texts)
      let (m, ways) := groups.foldl (fun (m, ways) g =>
        let branches := byFirst g
        let m := branches.foldl (fun m b => layTree n b.2 m) m
        match branches with
        | [] => (m, ways)
        | [_] => (m.add 0, ways + 1)
        | bs => (m.addRanges bs.length, ways + 1)) (m, groups.length - 1)
      m.addFork ways

def layTexts (texts : List (List Nat)) (m : Automaton) : Automaton :=
  layTree (texts.foldl (fun n t => max n t.length) 0 + 1) texts (m.add 0)

inductive Direction where
  | forwards
  | backwards
  deriving DecidableEq

abbrev Layout := Automaton → Automaton

/-- A layout `n` times; it ends early when it has become too large. -/
def layCopies (l : Layout) : Nat → Layout
  | 0, m => m
  | n + 1, m => if m.tooLarge then m else layCopies l n (l m)

def layExactly (l : Layout) (n : Nat) : Layout := fun m => if n = 0 then m.add 0 else layCopies l n m

def layOptional (l : Layout) : Layout := fun m => l (m.addFork 2)

/-- A loop around a layout; `takes` tells whether it takes a byte each time. -/
def layLoop (takes : Bool) (l : Layout) (lo : Nat) : Option Nat → Layout
  | some hi => fun m =>
    if lo = 0 && hi = 1 then (layOptional l m).add 0
    else if lo = hi then layExactly l lo m
    else layCopies (layOptional l) (hi - lo) ((layExactly l lo m).add 0)
  | none => fun m =>
    if lo = 0 then
      if takes then layOptional l m else (((l m).addFork 2).addFork 2).add 0
    else (layCopies l lo m).addFork 2

def layChoice : List Layout → Layout
  | [] => fun m => m
  | [l] => l
  | l :: l' :: ls => fun m => ls.foldl (fun m l => (l m).addWays 1) (((l' (l m)).addFork 2).add 0)

/-- The texts between which there is a choice, in the order in which they are read. -/
def Expr.texts? (d : Direction) (e : Expr) : Option (List (List Nat)) :=
  e.branches.mapM fun e =>
    match e with
    | .text s => some (if d = .forwards then s.flatMap fun c => utf8 c.toNat
        else (s.flatMap fun c => utf8 c.toNat).reverse)
    | _ => none

def layBranches (d : Direction) (e : Expr) (ls : List Layout) : Layout :=
  match ls, e.texts? d with
  | _ :: _ :: _, some texts => layTexts texts
  | ls, _ => layChoice ls

def layouts (d : Direction) : Expr → List Layout
  | .empty => [fun m => m.add 0]
  | .look _ => [fun m => m.add 0]
  | .text s =>
    let n := (s.flatMap fun c => utf8 c.toNat).length
    [Automaton.addStates n]
  | .one set =>
    if set.isAscii then [fun m => (m.add 0).addRanges set.length]
    else
      let rows := set.rows
      match d with
      | .forwards => [layForwards rows]
      | .backwards => [layBackwards rows]
  | .group _ e =>
    let l := layBranches d e (layouts d e)
    match d with
    | .forwards => [fun m => (l (m.add 0)).add 0]
    | .backwards => [l]
  | .loop e lo hi _ => [layLoop e.takes (layBranches d e (layouts d e)) lo hi]
  | .cat a b =>
    let l := layBranches d a (layouts d a)
    let l' := layBranches d b (layouts d b)
    match d with
    | .forwards => [fun m => l' (l m)]
    | .backwards => [fun m => l (l' m)]
  | .alt a b => layBranches d a (layouts d a) :: layouts d b

/-- Whether the place in the text where the pattern begins to be read has to be an end of it. -/
def Expr.anchored (d : Direction) : Expr → Bool
  | .look .textStart => d = .forwards
  | .look .textEnd => d = .backwards
  | .cat a b =>
    match d with
    | .forwards => a.anchored d || (a.onlyEmpty && b.anchored d)
    | .backwards => b.anchored d || (b.onlyEmpty && a.anchored d)
  | .alt a b => a.anchored d && b.anchored d
  | .group _ e => e.anchored d
  | .loop e lo _ _ => 0 < lo && e.anchored d
  | _ => false

def knownStates : Direction → Nat
  | .forwards => 10000
  | .backwards => 1000

/-- Lays out what passes over the text before a find, the pattern as group 0, and the end of it. -/
def Expr.automaton (d : Direction) (e : Expr) : Automaton :=
  let m : Automaton := ⟨0, 0, Known.ofCapacity (knownStates d)⟩
  let m := if e.anchored d then m.add 0 else ((m.addFork 2).add 0).addRanges 1
  let whole := Expr.group 0 e
  (layBranches d whole (layouts d whole) m).add 0

def Expr.fits (e : Expr) : Bool :=
  !(e.automaton .forwards).tooLarge && !(e.automaton .backwards).tooLarge

end FragmentMerge.Pattern

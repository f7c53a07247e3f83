import FragmentMerge.Script.Awk.Value
import Std.Data.HashMap

/-! The arrays of `awk`. An array goes through its items in the order of its drawers: an item lies in the drawer
that the hash of its key names, and what was put in or looked at last lies in front. Items that are known by
number only lie in other drawers until the order of all is asked for. -/

namespace FragmentMerge.Script.Awk

def hash (s : String) : Nat :=
  s.foldl (fun h c => Nat.xor h c.toNat * 16777619 % 4294967296) 2166136261

structure Table where
  values : Std.HashMap String Value
  texts : Array (List String)
  numbers : Array (List Int)
  /-- Whether all items lie in the drawers of texts. -/
  isSorted : Bool
  /-- How many items are known by their places only, from one on. -/
  dense : Nat

namespace Table

def drawers (n : Nat) : Array (List α) := (List.replicate n []).toArray

def empty : Table := ⟨∅, drawers 64, drawers 64, false, 0⟩

def count (t : Table) : Nat := t.values.size

def put (drawers : Array (List α)) (place : Nat) (a : α) : Array (List α) :=
  drawers.modify (place % drawers.size) (a :: ·)

def textPlace (t : Table) (key : String) : Nat := hash key % t.texts.size

def numberPlace (t : Table) (n : Int) : Nat := (n % t.numbers.size).toNat

/-- Lays out items that are known by their places only. -/
def loosened (t : Table) : Table :=
  if t.dense == 0 then t
  else (List.range t.dense).foldl (fun t i =>
    { t with numbers := put t.numbers (i + 1) (i + 1 : Nat), dense := 0 }) t

/-- Puts all items into the drawers of texts. -/
def sorted (t : Table) : Table :=
  let t := t.loosened
  if t.isSorted then t
  else
    let texts := t.numbers.foldl (fun texts ns =>
      ns.foldl (fun texts n => put texts (hash (toString n)) (toString n)) texts) t.texts
    { t with texts, isSorted := true }

def widened (t : Table) : Table :=
  let n := t.texts.size
  if t.count ≤ 12 * n then t
  else
    let split {α : Type} (place : α → Nat) (old : Array (List α)) : Array (List α) :=
      (old.map fun l => l.filter fun a => place a % (2 * n) < n) ++
        old.map fun l => l.filter fun a => n ≤ place a % (2 * n)
    { t with
      texts := split hash t.texts
      numbers := split (fun (k : Int) => (k % (2 * n : Nat)).toNat) t.numbers }

def moved (t : Table) (key : String) : Table :=
  let place := t.textPlace key
  { t with texts := t.texts.modify place fun l => key :: l.erase key }

/-- Finds a text, or makes room for it. -/
def findText (t : Table) (key : String) (makes : Bool) : Bool × Table :=
  let t := t.sorted
  if t.values.contains key then (true, t.moved key)
  else if makes then
    let t := { t with values := t.values.insert key .unset }.widened
    (true, { t with texts := put t.texts (hash key) key })
  else (false, t)

def findNumber (t : Table) (n : Int) (makes : Bool) : Bool × Table :=
  let key := toString n
  if 0 < t.dense && 1 ≤ n && n ≤ t.dense then (true, t)
  else if 0 < t.dense && !makes then (false, t)
  else
    let t := t.loosened
    let place := t.numberPlace n
    let known := (t.numbers.getD place []).contains n
    if known then (true, { t with numbers := t.numbers.modify place fun l => n :: l.erase n })
    else
      let (found, t) :=
        if t.isSorted then t.findText key makes
        else if makes then (true, { t with values := t.values.insert key .unset }.widened)
        else (false, t)
      if found then (true, { t with numbers := put t.numbers (t.numberPlace n) n }) else (false, t)

/-- Finds a key, or makes room for it; gives its text. -/
def find (t : Table) (form : String) (key : Value) (makes : Bool) : String × Bool × Table :=
  match key with
  | .number x =>
    let n := wholePart x
    if (strangeText? x).isNone && Float.floor x == x && n.natAbs ≤ 9223372036854775807 then
      (toString n, t.findNumber n makes)
    else
      let text := (strangeText? x).getD (formatted form x)
      (text, t.findText text makes)
  | key =>
    let text := key.toText form
    (text, t.findText text makes)

def get (t : Table) (key : String) : Value := t.values.getD key .unset

def set (t : Table) (key : String) (v : Value) : Table := { t with values := t.values.insert key v }

def remove (t : Table) (form : String) (key : Value) : Table :=
  let (text, found, t) := t.find form key false
  if !found then t
  else
    let t := t.loosened
    let place := t.textPlace text
    let t := { t with
      values := t.values.erase text
      texts := t.texts.modify place (·.erase text)
      numbers := t.numbers.map fun l => l.filter fun n => toString n != text }
    if t.count == 0 then empty else t

def keys (t : Table) : List String × Table :=
  let t := t.sorted
  (t.texts.toList.flatten, t)

/-- How many drawers hold so many items: `n` of them, or twice as many, and so on. -/
def enough (count : Nat) : Nat → Nat → Nat
  | 0, n => n
  | more + 1, n => if count ≤ 12 * n then n else enough count more (2 * n)

def ofList (vs : List Value) : Table :=
  let values := vs.zipIdx.foldl (fun m (v, i) => m.insert (toString (i + 1)) v) ∅
  let n := enough vs.length vs.length 64
  ⟨values, drawers n, drawers n, false, vs.length⟩

end Table

end FragmentMerge.Script.Awk

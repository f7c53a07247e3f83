import FragmentMerge.Pattern.Program
import FragmentMerge.Text.Finder

/-! Searches a text for a pattern. All ways to go on are followed together, in order of preference
and character by character, so a search is linear in the text. -/

namespace FragmentMerge.Pattern

/-- Where groups open and close, latest first. -/
abbrev Slots := List (Nat × Nat)

/-- A way to go on: a step, and the slots set on the way to it. -/
structure Thread where
  step : Nat
  slots : Slots

/-- Threads in reverse order of preference. A step is reached once in a turn; `seen` holds the turn in
which each step was last reached. -/
structure Reached where
  turn : Nat
  seen : Array Nat
  threads : List Thread

def Reached.start (steps : Nat) : Reached := ⟨1, Array.replicate steps 0, []⟩

/-- Goes on from each thread, the first one first, to all steps that take a character or accept,
without taking one. Each step is reached once, and leads to two others at most: that bounds the
work. -/
def follow (steps : Steps) (place : Place) (pos : Nat) : Nat → List Thread → Reached → Reached
  | 0, _, r => r
  | _, [], r => r
  | n + 1, t :: ts, ⟨turn, seen, threads⟩ =>
    if seen[t.step]? = some turn then follow steps place pos n ts ⟨turn, seen, threads⟩
    else
      let seen := seen.setIfInBounds t.step turn
      match steps[t.step]? with
      | none => follow steps place pos n ts ⟨turn, seen, threads⟩
      | some (.split a b) =>
        follow steps place pos n (⟨a, t.slots⟩ :: ⟨b, t.slots⟩ :: ts) ⟨turn, seen, threads⟩
      | some (.look l next) =>
        let ts := if l.holds place then ⟨next, t.slots⟩ :: ts else ts
        follow steps place pos n ts ⟨turn, seen, threads⟩
      | some (.save k next) =>
        follow steps place pos n (⟨next, (k, pos) :: t.slots⟩ :: ts) ⟨turn, seen, threads⟩
      | some _ => follow steps place pos n ts ⟨turn, seen, t :: threads⟩

def Reached.add (steps : Steps) (place : Place) (pos : Nat) (t : Thread) (r : Reached) : Reached :=
  follow steps place pos (2 * steps.size + 2) [t] r

/-- Moves each thread over a character, most preferred first. A thread that accepts ends the ones
after it. -/
def advance (steps : Steps) (c : Char) (place : Place) (pos : Nat) :
    List Thread → Reached → Reached × Option Slots
  | [], r => (r, none)
  | t :: ts, r =>
    match steps[t.step]? with
    | some .accept => (r, some t.slots)
    | some (.one set next) =>
      let r := if set.has c then r.add steps place (pos + 1) ⟨next, t.slots⟩ else r
      advance steps c place pos ts r
    | _ => advance steps c place pos ts r

def accepted (steps : Steps) : List Thread → Option Slots
  | [] => none
  | t :: ts =>
    match steps[t.step]? with
    | some .accept => some t.slots
    | _ => accepted steps ts

/-- Runs over the text. A new thread starts at each place until something is found. -/
def run (p : Pattern) (pos : Nat) (left : Option Char) (r : Reached) (best : Option Slots) :
    List Char → Option Slots
  | [] =>
    let r := if best.isNone then r.add p.steps ⟨left, none⟩ pos ⟨p.start, [(0, pos)]⟩ else r
    (accepted p.steps r.threads.reverse).map (fun s => (1, pos) :: s) |>.or best
  | c :: s =>
    let r := if best.isNone then r.add p.steps ⟨left, some c⟩ pos ⟨p.start, [(0, pos)]⟩ else r
    if r.threads.isEmpty && best.isSome then best
    else
      let (r, found) :=
        advance p.steps c ⟨some c, s.head?⟩ pos r.threads.reverse ⟨r.turn + 1, r.seen, []⟩
      let best := (found.map (fun s => (1, pos) :: s)).or best
      run p (pos + 1) (some c) r best s

def groupText? (text : List Char) (slots : Slots) (i : Nat) : Option (List Char) :=
  match slots.lookup (2 * i), slots.lookup (2 * i + 1) with
  | some a, some b => some ((text.drop a).take (b - a))
  | _, _ => none

end FragmentMerge.Pattern

namespace FragmentMerge

def Pattern.find (p : Pattern) : Finder := fun left s =>
  (Pattern.run p 0 left (.start p.steps.size) none s).map fun slots =>
    let a := (slots.lookup 0).getD 0
    let b := (slots.lookup 1).getD a
    ⟨a, b - a, (List.range (p.groups + 1)).map (Pattern.groupText? s slots)⟩

def Pattern.matches (p : Pattern) (s : List Char) : Bool := (p.find none s).isSome

end FragmentMerge

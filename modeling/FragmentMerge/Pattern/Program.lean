import FragmentMerge.Pattern.Parser
import FragmentMerge.Pattern.Size

/-! A pattern as a list of steps. Of two ways on, the first is tried first, so the order of the ways
gives the order of preference among finds. -/

namespace FragmentMerge.Pattern

inductive Step where
  | accept
  | one (set : Ranges) (next : Nat)
  | look (l : Look) (next : Nat)
  | save (slot : Nat) (next : Nat)
  | split (first second : Nat)

abbrev Steps := Array Step

def emit (steps : Steps) (s : Step) : Steps × Nat :=
  let number := steps.size
  (steps.push s, number)

def fork (greedy : Bool) (inside outside : Nat) : Step :=
  if greedy then .split inside outside else .split outside inside

def spell (s : List Char) (steps : Steps) (next : Nat) : Steps × Nat :=
  s.reverse.foldl (fun (steps, next) c => emit steps (.one (Ranges.single c) next)) (steps, next)

/-- Adds the steps of a body, given the steps so far and where it goes on. -/
abbrev Body := Steps → Nat → Steps × Nat

/-- Adds the steps of `n` bodies in a row, the last one first. -/
def copies (body : Body) : Nat → Steps → Nat → Steps × Nat
  | 0, steps, next => (steps, next)
  | n + 1, steps, next =>
    let (steps, start) := body steps next
    copies body n steps start

/-- Adds up to `n` bodies, the last one first, each of which may be left out with all that follow
it; `next` is where the first of those that stand goes on. -/
def optional (greedy : Bool) (body : Body) (out : Nat) : Nat → Steps → Nat → Steps × Nat
  | 0, steps, next => (steps, next)
  | n + 1, steps, next =>
    let (steps, start) := body steps next
    let (steps, fork) := emit steps (fork greedy start out)
    optional greedy body out n steps fork

def oneOrMore (greedy : Bool) (body : Body) (steps : Steps) (next : Nat) :
    Steps × Nat :=
  let (steps, again) := emit steps .accept
  let (steps, start) := body steps again
  (steps.setIfInBounds again (fork greedy start next), start)

/-- Adds any number of bodies. A body that can match the empty text runs once or more, or not at
all: that keeps the order of preference when it matches the empty text. -/
def zeroOrMore (greedy nullable : Bool) (body : Body) (steps : Steps)
    (next : Nat) : Steps × Nat :=
  if nullable then
    let (steps, start) := oneOrMore greedy body steps next
    emit steps (fork greedy start next)
  else
    let (steps, again) := emit steps .accept
    let (steps, start) := body steps again
    (steps.setIfInBounds again (fork greedy start next), again)

/-- Adds the steps of a pattern that goes on at `next`, and gives the number of the first one. -/
def compile : Expr → Steps → Nat → Steps × Nat
  | .empty, steps, next => (steps, next)
  | .text s, steps, next => spell s steps next
  | .one set, steps, next => emit steps (.one set next)
  | .look l, steps, next => emit steps (.look l next)
  | .cat a b, steps, next =>
    let (steps, start) := compile b steps next
    compile a steps start
  | .alt a b, steps, next =>
    let (steps, first) := compile a steps next
    let (steps, second) := compile b steps next
    emit steps (.split first second)
  | .group i e, steps, next =>
    let (steps, close) := emit steps (.save (2 * i + 1) next)
    let (steps, start) := compile e steps close
    emit steps (.save (2 * i) start)
  | .loop e lo hi greedy, steps, next =>
    let body := compile e
    match hi with
    | some hi =>
      let (steps, start) := optional greedy body next (hi - lo) steps next
      copies body lo steps start
    | none =>
      match lo with
      | 0 => zeroOrMore greedy (!e.takes) body steps next
      | lo + 1 =>
        let (steps, start) := oneOrMore greedy body steps next
        copies body lo steps start

end FragmentMerge.Pattern

namespace FragmentMerge

structure Pattern where
  steps : Pattern.Steps
  start : Nat
  groups : Nat
  names : List (String × Nat)

def Pattern.compile? (s : String) : Except Pattern.Fault Pattern :=
  match Pattern.parse s with
  | .error e => .error e
  | .ok p =>
    if !p.expr.fits then .error .tooLarge
    else
      let (steps, accept) := Pattern.emit #[] .accept
      let (steps, start) := Pattern.compile p.expr steps accept
      .ok ⟨steps, start, p.groups, p.names⟩

end FragmentMerge

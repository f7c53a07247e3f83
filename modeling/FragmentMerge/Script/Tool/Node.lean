import FragmentMerge.Pattern.Search

/-! Regular expressions of the tools, as trees. One without references to groups is run as a pattern;
one with references is run by trying all ways that it can match. -/

namespace FragmentMerge.Script

open Pattern (Expr Look Place Ranges)

inductive Node where
  | empty
  | one (set : Ranges)
  | look (l : Look)
  | cat (a b : Node)
  | alt (a b : Node)
  | group (index : Nat) (a : Node)
  /-- The text that a group has matched. -/
  | back (index : Nat)
  | loop (a : Node) (min : Nat) (max : Option Nat)
  deriving DecidableEq

namespace Node

def inRow : List Node → Node
  | [] => empty
  | [a] => a
  | a :: as => cat a (inRow as)

def size : Node → Nat
  | cat a b => a.size + b.size + 1
  | alt a b => a.size + b.size + 1
  | group _ a => a.size + 1
  | loop a lo hi => a.size + lo + hi.getD 0 + 1
  | _ => 1

def expr? : Node → Option Expr
  | empty => some .empty
  | one set => some (Expr.ofSet set)
  | look l => some (.look l)
  | cat a b => do pure (Expr.inRow [← a.expr?, ← b.expr?])
  | alt a b => do pure (.alt (← a.expr?) (← b.expr?))
  | group i a => do pure (.group i (← a.expr?))
  | back _ => none
  | loop a lo hi => do pure (Expr.repeated (← a.expr?) lo hi true)

/-- A way that a tree can match as far as it goes: how much is taken, the character before what is
left, and the groups. -/
structure Trace where
  taken : Nat
  left : Option Char
  rest : List Char
  groups : List (Nat × List Char)

namespace Trace

def skip (t : Trace) (n : Nat) : Trace :=
  { t with taken := t.taken + n, left := (t.rest.take n).getLast?.or t.left, rest := t.rest.drop n }

end Trace

/-- The ways on from a way, those that loop longer first. -/
def traces : Nat → Node → Trace → List Trace
  | 0, _, _ => []
  | n + 1, a, t =>
    match a with
    | empty => [t]
    | one set => if t.rest.head?.any set.has then [t.skip 1] else []
    | look l => if l.holds ⟨t.left, t.rest.head?⟩ then [t] else []
    | cat a b => (traces n a t).flatMap (traces n b)
    | alt a b => traces n a t ++ traces n b t
    | group i a =>
      (traces n a t).map fun u => { u with groups := (i, t.rest.take (u.taken - t.taken)) :: u.groups }
    | back i =>
      match t.groups.lookup i with
      | some s => if s.isPrefixOf t.rest then [t.skip s.length] else []
      | none => []
    | loop a 0 hi =>
      let more := if hi == some 0 then []
        else ((traces n a t).filter fun u => t.taken < u.taken).flatMap
          (traces n (loop a 0 (hi.map (· - 1))))
      more ++ [t]
    | loop a (lo + 1) hi => (traces n a t).flatMap (traces n (loop a lo (hi.map (· - 1))))

def longest? (a : Node) (left : Option Char) (s : List Char) : Option Trace :=
  (traces ((a.size + 1) * (s.length + 2)) a ⟨0, left, s, []⟩).foldl (fun best t =>
    match best with
    | none => some t
    | some b => if b.taken < t.taken then some t else some b) none

end Node

end FragmentMerge.Script

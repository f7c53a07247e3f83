import FragmentMerge.Script.Number
import FragmentMerge.Script.Shell

/-! The conditions of `test`. Words are read one by one; whether a word is an operator depends on the
words after it. -/

namespace FragmentMerge.Script

inductive OperatorKind where
  | unary
  | binary
  | connective
  | bang
  | bracket
  deriving DecidableEq, Repr

def unaryOperators : List String :=
  ["-r", "-w", "-x", "-e", "-f", "-d", "-c", "-b", "-p", "-u", "-g", "-k", "-s", "-t", "-z", "-n",
    "-h", "-O", "-G", "-L", "-S"]

def binaryOperators : List String :=
  ["=", "!=", "<", ">", "-eq", "-ne", "-ge", "-gt", "-le", "-lt", "-nt", "-ot", "-ef"]

def operatorKind? (w : String) : Option OperatorKind :=
  if unaryOperators.contains w then some .unary
  else if binaryOperators.contains w then some .binary
  else if w == "-a" || w == "-o" then some .connective
  else if w == "!" then some .bang
  else if w == "(" || w == ")" then some .bracket
  else none

inductive Sign where
  | none
  | operand
  | operator (w : String) (k : OperatorKind)
  deriving DecidableEq, Repr

/-- Whether a unary operator is meant as an operand. -/
def isOperand : List String → Bool
  | [] => true
  | [_] => false
  | w :: _ => operatorKind? w = some .binary

def signOf : List String → Sign
  | [] => .none
  | w :: ws =>
    match operatorKind? w with
    | some k =>
      if (k = .unary && isOperand ws) || (w == "(" && ws.isEmpty) then .operand else .operator w k
    | none => .operand

/-- Reads conditions: the truth, and the words from the last one on that was read. -/
abbrev Judged := Except String (Bool × List String)

def numberOf (w : String) : Except String Int :=
  match integer? w with
  | some n => .ok n
  | none => .error s!"Illegal number: {w}"

namespace Shell

def spot? (s : Shell) (p : String) : Option Disk.Spot :=
  match s.disk.locate (Octet.decode p) with
  | .ok (.vacant _ _) => none
  | .ok spot => some spot
  | .error _ => none

def holdsOne (s : Shell) (operator w : String) : Except String Bool := do
  if w == "/dev/null" && ["-e", "-c", "-r", "-w"].contains operator then pure true
  else match operator with
  | "-z" => pure w.isEmpty
  | "-n" => pure !w.isEmpty
  | "-t" => do
    let _ ← numberOf w
    pure false
  | operator =>
    match s.spot? w with
    | none => pure false
    | some (.directory _) => pure (["-e", "-d", "-r", "-w", "-x", "-s", "-O", "-G"].contains operator)
    | some (.file way c) =>
      if operator == "-s" then pure !c.bytes.isEmpty
      else if operator == "-x" then pure (s.runnable.contains way)
      else pure (["-e", "-f", "-r", "-w", "-O", "-G"].contains operator)
    | some _ => pure false

def holdsBetween (s : Shell) (a operator b : String) : Except String Bool := do
  let compare (f : Int → Int → Bool) : Except String Bool := do
    let m ← numberOf a
    let n ← numberOf b
    pure (f m n)
  match operator with
  | "=" => pure (a == b)
  | "!=" => pure (a != b)
  | "<" => pure (decide (a < b))
  | ">" => pure (decide (b < a))
  | "-eq" => compare fun m n => m == n
  | "-ne" => compare fun m n => m != n
  | "-ge" => compare fun m n => n ≤ m
  | "-gt" => compare fun m n => n < m
  | "-le" => compare fun m n => m ≤ n
  | "-lt" => compare fun m n => m < n
  | "-ef" => pure ((s.spot? a).isSome && s.spot? a == s.spot? b)
  | _ => pure false

mutual

def alternatives (s : Shell) : Nat → Sign → List String → Judged
  | 0, _, _ => .error "argument expected"
  | n + 1, sign, ws => do
    let (a, ws) ← conditions s n sign ws
    match signOf (ws.drop 1) with
    | .operator "-o" _ => do
      let ws := ws.drop 2
      let (b, ws) ← alternatives s n (signOf ws) ws
      pure (a || b, ws)
    | _ => pure (a, ws)

def conditions (s : Shell) : Nat → Sign → List String → Judged
  | 0, _, _ => .error "argument expected"
  | n + 1, sign, ws => do
    let (a, ws) ← condition s n sign ws
    match signOf (ws.drop 1) with
    | .operator "-a" _ => do
      let ws := ws.drop 2
      let (b, ws) ← conditions s n (signOf ws) ws
      pure (a && b, ws)
    | _ => pure (a, ws)

def condition (s : Shell) : Nat → Sign → List String → Judged
  | 0, _, _ => .error "argument expected"
  | n + 1, sign, ws =>
    match sign with
    | .operator "!" _ => do
      let next := signOf (ws.drop 1)
      let (a, ws) ← condition s n next (if next = .none then ws else ws.drop 1)
      pure (!a, ws)
    | .none => .ok (false, ws)
    | .operator "(" _ => do
      let ws := ws.drop 1
      match signOf ws with
      | .operator ")" _ => .ok (false, ws)
      | inner => do
        let (a, ws) ← alternatives s n inner ws
        let ws := ws.drop 1
        match signOf ws with
        | .operator ")" _ => .ok (a, ws)
        | _ => .error "closing paren expected"
    | .operator w .unary =>
      match ws with
      | _ :: v :: ws => do pure (← s.holdsOne w v, v :: ws)
      | _ => .error s!"{w}: argument expected"
    | _ =>
      match ws with
      | a :: w :: ws =>
        match signOf (w :: ws) with
        | .operator w .binary =>
          match ws with
          | b :: ws => do pure (← s.holdsBetween a w b, b :: ws)
          | [] => .error s!"{w}: argument expected"
        | _ => .ok (!a.isEmpty, a :: w :: ws)
      | [a] => .ok (!a.isEmpty, [a])
      | [] => .ok (false, [])

end

/-- The truth of the words of `test`. With three or four of them the place of an operator decides what
they mean. -/
def judge (s : Shell) : Nat → List String → Except String Bool
  | _, [] => .ok false
  | 0, _ => .ok false
  | n + 1, ws =>
    let evaluate (sign : Sign) (ws : List String) : Except String Bool := do
      let (a, rest) ← alternatives s (8 * ws.length + 8) sign ws
      match rest with
      | w :: _ :: _ => .error s!"{w}: unexpected operator"
      | _ => pure a
    let isBracketed := ws.head? = some "(" && ws.getLast? = some ")"
    let special (ws : List String) : Except String Bool :=
      if isBracketed then
        let inner := (ws.drop 1).dropLast
        evaluate (signOf inner) inner
      else if ws.head? = some "!" then do
        match ws.drop 1 with
        | [] => pure true
        | rest => do pure !(← judge s n rest)
      else evaluate (signOf ws) ws
    match ws with
    | [_, w, _] => if operatorKind? w = some .binary then evaluate .operand ws else special ws
    | [_, _, _, _] => special ws
    | ws => evaluate (signOf ws) ws

end Shell

end FragmentMerge.Script

import FragmentMerge.Script.Number
import FragmentMerge.Script.Syntax

/-! Arithmetic. An expression is worked out while it is read; what is not asked for, such as the other
branch of a choice, is read without effect. -/

namespace FragmentMerge.Script

inductive Symbol where
  | number (n : Int)
  | name (s : String)
  | sign (s : String)
  | bad
  deriving DecidableEq, Repr

/-- Signs, longer ones first. -/
def signs : List String :=
  ["<<=", ">>=", "||", "&&", "<<", ">>", "<=", ">=", "==", "!=", "*=", "/=", "%=", "+=", "-=", "&=",
    "^=", "|=", "(", ")", "*", "/", "%", "+", "-", "~", "!", "<", ">", "&", "^", "|", "?", ":", "="]

def symbols : Nat → List Char → List Symbol
  | 0, _ => []
  | _, [] => []
  | n + 1, c :: s =>
    if c == ' ' || c == '\t' || c == '\n' then symbols n s
    else if c.isDigit then
      match numeral? true (c :: s) with
      | some r => .number r.value :: symbols n r.rest
      | none => [.bad]
    else if isNameStart c then
      let name := (c :: s).takeWhile isNameChar
      .name (String.ofList name) :: symbols n ((c :: s).drop name.length)
    else match signs.find? fun t => t.toList.isPrefixOf (c :: s) with
      | some t => .sign t :: symbols n ((c :: s).drop t.length)
      | none => .bad :: symbols n s

/-- What is left of an expression, and the assignments so far, latest first. -/
structure Reckoning where
  symbols : List Symbol
  sets : List (String × Int)

inductive ReckonFault where
  | expression (message : String)
  | illegal (text : String)

abbrev Reckon := EStateM ReckonFault Reckoning

namespace Reckon

def fail (message : String) : Reckon α := throw (.expression message)

def peek : Reckon (Option Symbol) := do pure (← get).symbols.head?

def skip : Reckon Unit := modify fun r => { r with symbols := r.symbols.tail }

def takeIf (sign : String) : Reckon Bool := do
  if (← peek) = some (.sign sign) then
    skip
    pure true
  else pure false

def truth (b : Bool) : Int := if b then 1 else 0

def lookup (value : String → Option String) (name : String) : Reckon Int := do
  match (← get).sets.lookup name with
  | some n => pure n
  | none =>
    let s := (value name).getD ""
    match numeral? true s.toList with
    | some r => if r.isCut || !r.rest.all isSpace then throw (.illegal s) else pure r.value
    | none => if s.toList.all isSpace then pure 0 else throw (.illegal s)

/-- The operations between two numbers, those that bind closest first. -/
def levels : List (List String) :=
  [["|"], ["^"], ["&"], ["==", "!="], ["<", "<=", ">", ">="], ["<<", ">>"], ["+", "-"],
    ["*", "/", "%"]]

def bits (n : Int) : Nat := (n % (2 * numberLimit + 2)).toNat

def apply (sign : String) (a b : Int) : Reckon Int :=
  match sign with
  | "*" => pure (wrapped (a * b))
  | "/" => if b = 0 then fail "division by zero" else pure (wrapped (a.tdiv b))
  | "%" => if b = 0 then fail "division by zero" else pure (wrapped (a.tmod b))
  | "+" => pure (wrapped (a + b))
  | "-" => pure (wrapped (a - b))
  | "<<" => pure (wrapped (a * (Nat.pow 2 (bits b % 64) : Nat)))
  | ">>" => pure (a / (Nat.pow 2 (bits b % 64) : Nat))
  | "<" => pure (truth (a < b))
  | "<=" => pure (truth (a ≤ b))
  | ">" => pure (truth (b < a))
  | ">=" => pure (truth (b ≤ a))
  | "==" => pure (truth (a = b))
  | "!=" => pure (truth (a ≠ b))
  | "&" => pure (wrapped (bits a &&& bits b))
  | "^" => pure (wrapped (bits a ^^^ bits b))
  | _ => pure (wrapped (bits a ||| bits b))

/-- Works out an operation, unless it is only read. -/
def applyIf (live : Bool) (sign : String) (a b : Int) : Reckon Int :=
  if live then apply sign a b else pure b

def assigning : List String := ["*=", "/=", "%=", "+=", "-=", "<<=", ">>=", "&=", "^=", "|="]

mutual

def primary (value : String → Option String) : Nat → Bool → Reckon Int
  | 0, _ => fail "expecting primary"
  | n + 1, live => do
    match ← peek with
    | some (.number k) => do
      skip
      pure k
    | some (.name s) => do
      skip
      if live then lookup value s else pure 0
    | some (.sign "(") => do
      skip
      let r ← whole value n live
      if ← takeIf ")" then pure r else fail "expecting ')'"
    | some (.sign "+") => do
      skip
      primary value n live
    | some (.sign "-") => do
      skip
      pure (wrapped (-(← primary value n live)))
    | some (.sign "!") => do
      skip
      pure (truth ((← primary value n live) = 0))
    | some (.sign "~") => do
      skip
      pure (-(← primary value n live) - 1)
    | _ => fail "expecting primary"

def operation (value : String → Option String) : Nat → List (List String) → Bool → Reckon Int
  | 0, _, _ => fail "expecting primary"
  | n + 1, levels, live =>
    match levels with
    | [] => primary value n live
    | level :: tighter => do
      let a ← operation value n tighter live
      operationMore value n level tighter live a

def operationMore (value : String → Option String) :
    Nat → List String → List (List String) → Bool → Int → Reckon Int
  | 0, _, _, _, _ => fail "expecting primary"
  | n + 1, level, tighter, live, a => do
    match ← peek with
    | some (.sign s) =>
      if level.contains s then
        skip
        let b ← operation value n tighter live
        operationMore value n level tighter live (← applyIf live s a b)
      else pure a
    | _ => pure a

def conjunction (value : String → Option String) : Nat → Bool → Reckon Int
  | 0, _ => fail "expecting primary"
  | n + 1, live => do
    let a ← operation value n levels live
    if ← takeIf "&&" then
      let b ← conjunction value n (live && a ≠ 0)
      pure (truth (a ≠ 0 && b ≠ 0))
    else pure a

def disjunction (value : String → Option String) : Nat → Bool → Reckon Int
  | 0, _ => fail "expecting primary"
  | n + 1, live => do
    let a ← conjunction value n live
    if ← takeIf "||" then
      let b ← disjunction value n (live && a = 0)
      pure (truth (a ≠ 0 || b ≠ 0))
    else pure a

def choice (value : String → Option String) : Nat → Bool → Reckon Int
  | 0, _ => fail "expecting primary"
  | n + 1, live => do
    let a ← disjunction value n live
    if ← takeIf "?" then
      let b ← whole value n (live && a ≠ 0)
      if !(← takeIf ":") then fail "expecting ':'"
      let c ← choice value n (live && a = 0)
      pure (if a ≠ 0 then b else c)
    else pure a

def whole (value : String → Option String) : Nat → Bool → Reckon Int
  | 0, _ => fail "expecting primary"
  | n + 1, live => do
    match (← get).symbols with
    | .name s :: .sign op :: _ =>
      if op == "=" || assigning.contains op then
        skip
        skip
        let b ← whole value n live
        if !live then pure b
        else
          let r ← if op == "=" then pure b
            else do apply (op.dropEnd 1).toString (← lookup value s) b
          modify fun r' => { r' with sets := (s, r) :: r'.sets }
          pure r
      else choice value n live
    | _ => choice value n live

end

def all (value : String → Option String) (limit : Nat) : Reckon Int := do
  let r ← whole value limit true
  match ← peek with
  | none => pure r
  | some _ => fail "expecting EOF"

end Reckon

/-- Works out an expression: its value and the assignments that it makes, in order. -/
def reckon (value : String → Option String) (s : List Char) :
    Except ReckonFault (Int × List (String × Int)) :=
  let ss := symbols (s.length + 1) s
  match Reckon.all value (16 * ss.length + 16) ⟨ss, []⟩ with
  | .ok n r => .ok (n, r.sets.reverse)
  | .error e _ => .error e

end FragmentMerge.Script

import FragmentMerge.Script.Format
import FragmentMerge.Script.Tool.Basic

/-! The programs that print their arguments, as they are when no shell stands in for them. -/

namespace FragmentMerge.Script.Tool

open Job

/-- The number that digits of a base give, and how many of at most `n` characters are such digits. -/
def hexDigits (n : Nat) (s : List Char) : Nat × Nat :=
  let ds := (s.takeWhile fun c => c.isDigit || ('a' ≤ c && c ≤ 'f') || ('A' ≤ c && c ≤ 'F')).take n
  ((digits 16 0 ds).1, ds.length)

def octalized : Nat → List Char → List Char
  | 0, s => s
  | n + 1, '\\' :: 'x' :: s =>
    let (code, length) := hexDigits 2 s
    if length == 0 then '\\' :: 'x' :: octalized n s
    else
      let ds := Nat.toDigits 8 code
      '\\' :: List.replicate (3 - ds.length) '0' ++ ds ++ octalized n (s.drop length)
  | n + 1, '\\' :: c :: s => '\\' :: c :: octalized n s
  | n + 1, c :: s => c :: octalized n s
  | _, [] => []

def isEchoOption (w : String) : Bool :=
  match w.toList with
  | '-' :: c :: cs => (c :: cs).all "neE".toList.contains
  | _ => false

def echo : Job Unit := do
  let args := (← get).call.args
  let given := args.takeWhile isEchoOption
  let letters := given.flatMap fun w => w.toList.drop 1
  let text := (" ".intercalate (args.drop given.length)).toList
  let escapes := (letters.filter (· != 'n')).getLast? == some 'e'
  let (text, ends) := if escapes then unescaped (octalized text.length text) else (text, false)
  printChars (text ++ if ends || letters.contains 'n' then [] else ['\n'])

def misprintText : Misprint → String
  | .noNumber => "expected a numeric value"
  | .cutShort => "value not completely converted"
  | .outOfRange => "Numerical result out of range"

def printf : Job Unit := do
  let args := (← get).call.args
  let args := if args.head? == some "--" then args.drop 1 else args
  match args with
  | [] => misuse "missing operand"
  | format :: args => do
    let format := String.ofList (octalized format.length format.toList)
    let (p, problem) := printed format args
    for (arg, what) in p.complaints do
      let what := misprintText what
      complain s!"'{arg}': {what}"
    printChars p.out
    match problem with
    | none => pure ()
    | some .missing => fail "%: invalid conversion specification"
    | some (.invalid d) => fail s!"{d}: invalid conversion specification"

def pwd : Job Unit := do
  let (_, words) ← options ⟨"LP", "", [("logical", 'L'), ("physical", 'P')]⟩
  if !words.isEmpty then
    note "pwd: ignoring non-option arguments\n"
  print (Octet.encode (← disk).hereText ++ "\n")

end FragmentMerge.Script.Tool

import FragmentMerge.Script.Tool.Basic
import FragmentMerge.Script.Tool.Files
import FragmentMerge.Script.Tool.Regular

/-! `grep`: the rows of files in which an expression is found. -/

namespace FragmentMerge.Script.Tool

open Job
open Pattern (Look)

structure GrepPlan where
  given : List Given
  finders : List Regular
  named : Bool
  most : Option Nat
  before : Nat
  after : Nat

namespace GrepPlan

def asks (p : GrepPlan) (c : Char) : Bool := gives p.given c

/-- The first find of any of the expressions; of finds at one place the longest. -/
def find? (p : GrepPlan) (left : Option Char) (s : List Char) : Option Find :=
  p.finders.foldl (fun best e =>
    match best, e.find? left s with
    | none, f => f
    | some b, some f => if f.start < b.start || (f.start == b.start && b.length < f.length) then some f else some b
    | some b, none => some b) none

def selects (p : GrepPlan) (row : List Char) : Bool := (p.find? none row).isSome != p.asks 'v'

/-- The parts of a row that are found, each with how much stands before it. -/
def found (p : GrepPlan) : Nat → Nat → Option Char → List Char → List (Nat × List Char)
  | 0, _, _, _ => []
  | n + 1, place, left, s =>
    match p.find? left s with
    | none => []
    | some f =>
      let part := (s.drop f.start).take f.length
      let used := f.start + max f.length 1
      let rest := found p n (place + used) ((s.take used).getLast?.or left) (s.drop used)
      let rest := if s.length < used then [] else rest
      if part.isEmpty then rest else (place + f.start, part) :: rest

def line (p : GrepPlan) (file : String) (n place : Nat) (mark : String) (row : List Char) : String :=
  let name := if p.named then file ++ (if p.asks 'Z' then "\x00" else mark) else ""
  let number := if p.asks 'n' then toString n ++ mark else ""
  let offset := if p.asks 'b' then toString place ++ mark else ""
  name ++ number ++ offset ++ String.ofList row ++ "\n"

def placeOf (all : Array (List Char)) (n : Nat) : Nat :=
  (all.toList.take (n - 1)).foldl (fun k r => k + r.length + 1) 0

/-- Rows as printed, with those around them where they are asked for; `last` is the number of the row
printed last, and `owed` is how many rows are still to follow it. -/
def lines (p : GrepPlan) (file : String) (all : Array (List Char)) :
    List (Nat × Bool) → Option Nat → Nat → List String
  | [], _, _ => []
  | (n, true) :: rest, last, _ =>
    let first := match last with
      | some m => max m (n - 1 - p.before)
      | none => n - 1 - p.before
    let gap := if (p.before + p.after) != 0 && last.isSome && last != some first then ["--\n"] else []
    let context := (List.range (n - 1 - first)).map fun i =>
      p.line file (first + i + 1) (placeOf all (first + i + 1)) "-" (all.getD (first + i) [])
    let row := all.getD (n - 1) []
    let own := if p.asks 'o' then
        (if p.asks 'v' then []
          else (p.found (row.length + 1) (placeOf all n) none row).map fun (i, part) =>
            p.line file n i ":" part)
      else [p.line file n (placeOf all n) ":" row]
    gap ++ context ++ own ++ lines p file all rest (some n) p.after
  | (_, false) :: rest, last, 0 => lines p file all rest last 0
  | (n, false) :: rest, _, owed + 1 =>
    p.line file n (placeOf all n) "-" (all.getD (n - 1) []) :: lines p file all rest (some n) owed

end GrepPlan

def grepFile (p : GrepPlan) (file : String) (s : List Char) : Job Bool := do
  let all := rows s
  let chosen := all.map p.selects
  let numbers := (chosen.zipIdx.filter (·.1)).map (·.2)
  let numbers := match p.most with
    | some m => numbers.take m
    | none => numbers
  let count := numbers.length
  let isFound := count != 0
  let shown := if file == "-" then "(standard input)" else file
  if p.asks 'q' then pure ()
  else if p.asks 'c' then print ((if p.named then shown ++ ":" else "") ++ toString count ++ "\n")
  else if p.asks 'l' then print (if isFound then shown ++ "\n" else "")
  else if p.asks 'L' then print (if isFound then "" else shown ++ "\n")
  else
    let upTo := match p.most, numbers.getLast? with
      | some m, some last => if count == m then last + 1 + p.after else all.length
      | _, _ => all.length
    let marked := (List.range (min upTo all.length)).map fun i => (i + 1, numbers.contains i)
    if s.contains '\x00' && !p.asks 'a' then
      if isFound then note s!"grep: {shown}: binary file matches\n"
    else print (String.join (p.lines shown all.toArray marked none 0))
  pure isFound

/-- The files that operands stand for, where directories are gone through. -/
def grepFiles (p : GrepPlan) (operand : String) : Job (List String) := do
  if p.asks 'r' && (← isDirectory operand) then
    let d ← disk
    let below := (d.filesBelow (Octet.decode operand)).map fun way =>
      Script.below operand (Octet.encode ("/".intercalate way))
    let values (c : Char) : List (List Wildcard) := (p.given.filter (·.letter == c)).map fun g =>
      wildcards (g.value.toList.map fun c => (c, false))
    let keeps (f : String) : Bool :=
      let name := (baseName f).toList
      ((values '+').isEmpty || (values '+').any (fits · name)) && !(values '-').any (fits · name)
    pure (below.mergeSort.filter keeps)
  else pure [operand]

def grepOptions : Options :=
  ⟨"EFGPHLVZabchilnoqrRsTUvwxyz", "ABCefm+-", [("extended-regexp", 'E'), ("fixed-strings", 'F'),
    ("basic-regexp", 'G'), ("regexp", 'e'), ("file", 'f'), ("ignore-case", 'i'), ("invert-match", 'v'),
    ("word-regexp", 'w'), ("line-regexp", 'x'), ("count", 'c'), ("files-with-matches", 'l'),
    ("files-without-match", 'L'), ("max-count", 'm'), ("only-matching", 'o'), ("quiet", 'q'),
    ("silent", 'q'), ("no-messages", 's'), ("line-number", 'n'), ("with-filename", 'H'),
    ("no-filename", 'h'), ("recursive", 'r'), ("after-context", 'A'), ("before-context", 'B'),
    ("context", 'C'), ("text", 'a'),
    ("byte-offset", 'b'), ("null", 'Z'), ("include", '+'), ("exclude", '-'), ("perl-regexp", 'P')]⟩

def grepWith (fixed extended : Bool) : Job Unit := do
  let isColor (a : String) : Bool := a.startsWith "--color" || a.startsWith "--colour"
  modify fun b => { b with call := { b.call with args := b.call.args.filter (!isColor ·) } }
  let (given, operands) ← optionsAs 2 grepOptions
  let given := given.map fun g => if g.letter == 'R' then { g with letter := 'r' } else g
  let mut patterns : List (List Char) := []
  for g in given do
    if g.letter == 'e' then patterns := patterns ++ g.value.toList.splitOn '\n'
    if g.letter == 'f' then
      match ← operandText g.value with
      | .error e => failAs 2 s!"{g.value}: {e.reason}"
      | .ok s => patterns := patterns ++ rows s
  let explicit := gives given 'e' || gives given 'f'
  let operands ← if explicit then pure operands
    else match operands with
    | [] => do
      setStatus 2
      note "Usage: grep [OPTION]... PATTERNS [FILE]...\nTry 'grep --help' for more information.\n"
      quit
    | o :: os => do
      patterns := o.toList.splitOn '\n'
      pure os
  let d : Dialect := ⟨extended || gives given 'E' || gives given 'P', gives given 'i' || gives given 'y', false⟩
  let finders ← patterns.mapM fun t => do
    let (e, groups) ← if fixed || gives given 'F' then pure (Regular.literal d t, 0)
      else match Regular.node? d t with
      | .ok r => pure r
      | .error m => failAs 2 m
    let around (first last : Look) : Regular :=
      Regular.ofNode (.cat (.look first) (.cat e (.look last))) groups
    pure (if gives given 'x' then around .textStart .textEnd
      else if gives given 'w' then around (.beforeWord .ascii) (.afterWord .ascii)
      else Regular.ofNode e groups)
  let number (c : Char) : Job Nat := do
    match valueOf? given c with
    | none => pure 0
    | some v =>
      match digitsOnly? v with
      | some n => pure n
      | none => failAs 2 (if c == 'm' then "invalid max count" else s!"{v}: invalid context length argument")
  let around ← number 'C'
  let before ← number 'B'
  let after ← number 'A'
  let most ← number 'm'
  let files := if operands.isEmpty then [if gives given 'r' then "." else "-"] else operands
  let named := gives given 'H' || ((gives given 'r' || 1 < files.length) && !gives given 'h')
  let plan : GrepPlan := ⟨given, finders, named, if gives given 'm' then some most else none,
    max before around, max after around⟩
  let mut isFound := false
  let mut failed := false
  for operand in files do
    for file in ← grepFiles plan operand do
      match ← operandText file with
      | .error e =>
        failed := true
        if !gives given 's' then complainAs 2 s!"{file}: {e.reason}"
      | .ok s =>
        let file := if operands.isEmpty && gives given 'r' then String.ofList (file.toList.drop 2) else file
        if ← grepFile plan file s then isFound := true
  setStatus (if gives given 'q' && isFound then 0 else if failed then 2 else if isFound then 0 else 1)

def grep : Job Unit := grepWith false false

end FragmentMerge.Script.Tool

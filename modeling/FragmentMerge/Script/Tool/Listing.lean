import FragmentMerge.Script.Format
import FragmentMerge.Script.Tool.Files
import FragmentMerge.Script.Tool.Regular
import FragmentMerge.Script.Wildcard

/-! `ls` and `find`: the names in directories. -/

namespace FragmentMerge.Script.Tool

open Job

def lsOptions : Options :=
  ⟨"1aAbBcCdfFgGhHiklLmnNopqQrRsStuUvxXZ", "IwT", [("all", 'a'), ("almost-all", 'A'), ("directory", 'd'),
    ("reverse", 'r'), ("recursive", 'R'), ("classify", 'F'), ("format", 'w'), ("color", 'C')]⟩

def signed (given : List Given) (isDir runs : Bool) (name : String) : String :=
  if (gives given 'F' || gives given 'p') && isDir then name ++ "/"
  else if gives given 'F' && runs then name ++ "*"
  else name

def ordered (given : List Given) (names : List String) : List String :=
  if gives given 'r' then names.reverse else names

def listed (given : List Given) (names : List String) : String :=
  if gives given 'm' then (if names.isEmpty then "" else ", ".intercalate names ++ "\n")
  else String.join (names.map (· ++ "\n"))

def shownNames (given : List Given) (d : Disk) (way : List String) : List String :=
  let names := (d.namesIn way).map Octet.encode
  if gives given 'a' || gives given 'f' then "." :: ".." :: names
  else if gives given 'A' then names
  else names.filter fun n => n.toList.head? != some '.'

def sizeAt (d : Disk) (way : List String) : Nat :=
  match d.entry? way with
  | some (.file c) => c.bytes.length
  | _ => 4096

def directoryText (given : List Given) (b : Bench) (way : List String) : String :=
  let names := shownNames given b.disk way
  let wayOf (n : String) : List String :=
    if n == "." then way else if n == ".." then way.dropLast else way ++ [Octet.decode n]
  let names := if gives given 'S' then
      names.mergeSort fun m n => sizeAt b.disk (wayOf n) ≤ sizeAt b.disk (wayOf m)
    else names
  listed given ((ordered given names).map fun n =>
    let isDir := n == "." || n == ".." || b.disk.entry? (way ++ [Octet.decode n]) == some .directory
    signed given isDir (b.runnable.contains (way ++ [Octet.decode n])) n)

def directoriesBelow (given : List Given) (d : Disk) : Nat → String → List String →
    List (String × List String)
  | 0, _, _ => []
  | n + 1, shown, way =>
    let names := (shownNames given d way).filter fun name => name != "." && name != ".."
    let inner := (ordered given names).filterMap fun name =>
      let way := way ++ [Octet.decode name]
      if d.entry? way == some .directory then some (below shown name, way) else none
    (shown, way) :: inner.flatMap fun (shown, way) => directoriesBelow given d n shown way

def ls : Job Unit := do
  let (given, operands) ← optionsAs 2 lsOptions
  let b ← get
  let mut files : List (String × List String) := []
  let mut directories : List (String × List String) := []
  for o in (if operands.isEmpty then ["."] else operands).mergeSort do
    match ← spot o with
    | .error e => complainAs 2 s!"cannot access {quotedName o}: {e.reason}"
    | .ok (.directory way) =>
      if gives given 'd' then files := files ++ [(o, way)] else directories := directories ++ [(o, way)]
    | .ok s => files := files ++ [(o, wayOf s)]
  let names := (ordered given (files.map (·.1))).map fun n =>
    let way := (files.lookup n).getD []
    signed given (b.disk.entry? way == some .directory) (b.runnable.contains way) n
  print (listed given names)
  let deep := gives given 'R'
  let roots := if gives given 'r' then directories.reverse else directories
  let all := if deep then
      roots.flatMap fun (shown, way) =>
        directoriesBelow given b.disk (b.disk.entries.length + 1) shown way
    else roots
  let titled := deep || 1 < operands.length
  let mut first := files.isEmpty
  for (shown, way) in all do
    if !first then print "\n"
    if titled then print s!"{shown}:\n"
    print (directoryText given b way)
    first := false

inductive FindTest where
  | name (pattern : List Wildcard) (whole folds : Bool)
  | kind (c : Char)
  | empty
  | size (order : Ordering) (n : Nat) (unit : Nat)
  | always (b : Bool)
  | print (last : String)
  /-- Prints by a format. -/
  | form (text : List Char)
  /-- Whether the whole path matches. -/
  | matched (e : Regular)
  | delete
  | run (words : List String) (together : Bool)
  | prune
  | negated (t : FindTest)
  | both (a b : FindTest)
  | either (a b : FindTest)

/-- An entry that is looked at: its path as shown, its place, and how deep it lies. -/
structure Visit where
  shown : String
  way : List String
  depth : Nat

/-- What has been done, latest first; the entries that are to be removed, and the programs that are to be
run for many entries together. -/
structure FindState where
  events : List Event
  removed : List (List String)
  together : List (List String × List String)
  pruned : Bool

def FindTest.acts : FindTest → Bool
  | print _ => true
  | form _ => true
  | delete => true
  | run _ _ => true
  | negated t => t.acts
  | both a b => a.acts || b.acts
  | either a b => a.acts || b.acts
  | _ => false

def FindTest.removes : FindTest → Bool
  | delete => true
  | negated t => t.removes
  | both a b => a.removes || b.removes
  | either a b => a.removes || b.removes
  | _ => false

def Visit.form (d : Disk) (v : Visit) : List Char → List Char
  | '%' :: c :: s =>
    let isDir := d.entry? v.way == some .directory
    let text := match c with
      | 'p' => v.shown
      | 'f' => baseName v.shown
      | 'h' => directoryName v.shown
      | 'P' => "/".intercalate ((v.way.drop (v.way.length - v.depth)).map Octet.encode)
      | 'd' => toString v.depth
      | 's' => toString (sizeAt d v.way)
      | 'y' => if isDir then "d" else "f"
      | '%' => "%"
      | c => String.ofList ['%', c]
    text.toList ++ v.form d s
  | c :: s => c :: v.form d s
  | [] => []

def FindTest.holds (d : Disk) (v : Visit) : FindTest → FindState → Bool × FindState
  | .name p whole folds, s =>
    let text := if whole then v.shown else if v.shown == "/" then "/" else baseName v.shown
    (fits p ((if folds then text.toLower else text).toList), s)
  | .kind c, s =>
    let isDir := d.entry? v.way == some .directory
    (if c == 'd' then isDir else if c == 'f' then !isDir else false, s)
  | .empty, s =>
    (match d.entry? v.way with
      | some .directory => d.isEmptyAt v.way
      | some (.file c) => c.bytes.isEmpty
      | none => false, s)
  | .size order n unit, s =>
    let size := match d.entry? v.way with
      | some (.file c) => c.bytes.length
      | _ => 4096
    (compare ((size + unit - 1) / unit) n == order, s)
  | .always b, s => (b, s)
  | .print last, s => (true, { s with events := .out (v.shown ++ last) :: s.events })
  | .form text, s => (true, { s with events := .out (String.ofList (v.form d text)) :: s.events })
  | .matched e, s =>
    ((e.findHere 0 none v.shown.toList).any fun f => f.length == v.shown.length, s)
  | .delete, s => (true, { s with removed := s.removed ++ [v.way] })
  | .run words false, s =>
    (true, { s with events := .run (words.map fun w => w.replace "\x7b\x7d" v.shown) :: s.events })
  | .run words true, s =>
    let old := (s.together.lookup words).getD []
    (true, { s with together := (words, old ++ [v.shown]) :: s.together.filter (·.1 != words) })
  | .prune, s => (true, { s with pruned := true })
  | .negated t, s =>
    let (b, s) := t.holds d v s
    (!b, s)
  | .both a b, s =>
    let (x, s) := a.holds d v s
    if x then b.holds d v s else (false, s)
  | .either a b, s =>
    let (x, s) := a.holds d v s
    if x then (true, s) else b.holds d v s

mutual

def findChoice : Nat → List String → Except String (FindTest × List String)
  | 0, _ => .error "invalid expression"
  | n + 1, ws => do
    let (a, rest) ← findRow n ws
    match rest with
    | w :: rest' =>
      if w == "-o" || w == "-or" then
        let (b, rest) ← findChoice n rest'
        .ok (.either a b, rest)
      else .ok (a, rest)
    | [] => .ok (a, [])

def findRow : Nat → List String → Except String (FindTest × List String)
  | 0, _ => .error "invalid expression"
  | n + 1, ws => do
    let (a, rest) ← findOne n ws
    match rest with
    | [] => .ok (a, [])
    | w :: rest' =>
      if w == "-o" || w == "-or" || w == ")" then .ok (a, rest)
      else
        let (b, rest) ← findRow n (if w == "-a" || w == "-and" then rest' else rest)
        .ok (.both a b, rest)

def findOne : Nat → List String → Except String (FindTest × List String)
  | 0, _ => .error "invalid expression"
  | n + 1, ws =>
    let pattern (s : String) : List Wildcard := wildcards (s.toList.map fun c => (c, false))
    match ws with
    | "(" :: ws => do
      let (t, rest) ← findChoice n ws
      match rest with
      | ")" :: rest => .ok (t, rest)
      | _ => .error "invalid expression; I was expecting to find a ')' somewhere but did not see one."
    | "!" :: ws => do
      let (t, rest) ← findOne n ws
      .ok (.negated t, rest)
    | "-not" :: ws => do
      let (t, rest) ← findOne n ws
      .ok (.negated t, rest)
    | "-name" :: p :: ws => .ok (.name (pattern p) false false, ws)
    | "-iname" :: p :: ws => .ok (.name (pattern p.toLower) false true, ws)
    | "-path" :: p :: ws => .ok (.name (pattern p) true false, ws)
    | "-wholename" :: p :: ws => .ok (.name (pattern p) true false, ws)
    | "-type" :: k :: ws =>
      if ["b", "c", "d", "p", "f", "l", "s"].contains k then .ok (.kind (k.toList.headD 'f'), ws)
      else .error s!"Unknown argument to -type: {k}"
    | "-printf" :: form :: ws => .ok (.form (unescaped form.toList).1, ws)
    | "-regex" :: p :: ws =>
      match Regular.parse ⟨false, false, true⟩ p.toList with
      | .ok e => .ok (.matched e, ws)
      | .error m => .error m
    | "-empty" :: ws => .ok (.empty, ws)
    | "-true" :: ws => .ok (.always true, ws)
    | "-false" :: ws => .ok (.always false, ws)
    | "-print" :: ws => .ok (.print "\n", ws)
    | "-print0" :: ws => .ok (.print "\x00", ws)
    | "-delete" :: ws => .ok (.delete, ws)
    | "-prune" :: ws => .ok (.prune, ws)
    | "-maxdepth" :: _ :: ws => .ok (.always true, ws)
    | "-mindepth" :: _ :: ws => .ok (.always true, ws)
    | "-depth" :: ws => .ok (.always true, ws)
    | "-size" :: k :: ws =>
      let (order, s) := match k.toList with
        | '+' :: s => (Ordering.gt, s)
        | '-' :: s => (Ordering.lt, s)
        | s => (Ordering.eq, s)
      let (m, unit) := digits 10 0 s
      let unit := match unit with
        | ['c'] => 1
        | ['w'] => 2
        | ['k'] => 1024
        | ['M'] => 1048576
        | _ => 512
      .ok (.size order m unit, ws)
    | "-exec" :: ws =>
      let words := ws.takeWhile fun w => w != ";" && w != "+"
      match ws.drop words.length with
      | e :: rest => .ok (.run words (e == "+"), rest)
      | [] => .error "missing argument to `-exec'"
    | w :: ws =>
      if w.startsWith "-" then
        if ws.isEmpty && ["-name", "-iname", "-path", "-type", "-size"].contains w then
          .error s!"missing argument to `{w}'"
        else .error s!"unknown predicate `{w}'"
      else .error s!"paths must precede expression: `{w}'"
    | [] => .error "invalid expression"

end

def depthOption (name : String) : List String → Option Nat
  | a :: b :: ws => if a == name then digitsOnly? b else depthOption name (b :: ws)
  | _ => none

def visit (d : Disk) (t : FindTest) (least : Nat) (most : Option Nat) (depthFirst : Bool) :
    Nat → FindState → Visit → FindState
  | 0, s, _ => s
  | n + 1, s, v =>
    let look (s : FindState) : FindState :=
      if least ≤ v.depth then (t.holds d v { s with pruned := false }).2 else { s with pruned := false }
    let inner (s : FindState) : FindState :=
      if d.entry? v.way != some .directory || most.any (· ≤ v.depth) then s
      else (d.namesIn v.way).foldl (fun s name =>
        visit d t least most depthFirst n s
          ⟨below v.shown (Octet.encode name), v.way ++ [name], v.depth + 1⟩) s
    if depthFirst then look (inner s)
    else
      let s := look s
      if s.pruned then s else inner s

def find : Job Unit := do
  let args := (← get).call.args
  let isExpression (w : String) : Bool := w.startsWith "-" || w == "(" || w == "!"
  let paths := args.takeWhile (!isExpression ·)
  let words := args.drop paths.length
  let t ← if words.isEmpty then pure (FindTest.print "\n")
    else match findChoice (4 * words.length + 8) words with
    | .error m => fail m
    | .ok (t, []) => pure (if t.acts then t else .both t (.print "\n"))
    | .ok (_, _) => fail "invalid expression; you have too many ')'"
  let least := (depthOption "-mindepth" words).getD 0
  let most := depthOption "-maxdepth" words
  let depthFirst := words.contains "-depth" || t.removes
  let mut state : FindState := ⟨[], [], [], false⟩
  let d ← disk
  for p in (if paths.isEmpty then ["."] else paths) do
    match ← spot p with
    | .error e => complain s!"{quotedName p}: {e.reason}"
    | .ok s => state := visit d t least most depthFirst (d.entries.length + 2) state ⟨p, wayOf s, 0⟩
  for e in state.events.reverse do
    log e
  let together := state.together.reverse.map fun (words, paths) =>
    words.flatMap fun w => if w == "\x7b\x7d" then paths else [w]
  for words in together do
    runProgram words
  let removed := state.removed
  modify fun b => { b with disk := removed.foldl (fun d way => d.prune way) b.disk }

end FragmentMerge.Script.Tool

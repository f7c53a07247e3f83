import FragmentMerge.Script.Format
import FragmentMerge.Script.Tool.Files
import FragmentMerge.Script.Tool.Regular

/-! Tools that work on their arguments: names, numbers and conditions. -/

namespace FragmentMerge.Script.Tool

open Job

def withoutEnding (ending name : String) : String :=
  if ending != name && name.endsWith ending && !ending.isEmpty then
    String.ofList (name.toList.take (name.length - ending.length))
  else name

def basename : Job Unit := do
  let args := (← get).call.args
  let o : Options := ⟨"az", "s", [("multiple", 'a'), ("suffix", 's'), ("zero", 'z')]⟩
  let (given, names) ← o.parse true 1 (args.length + 1) args
  let many := gives given 'a' || gives given 's'
  let ending := (valueOf? given 's').getD ""
  if names.isEmpty then misuse "missing operand"
  if many then
    for n in names do
      print (withoutEnding ending (baseName n) ++ "\n")
  else match names with
  | [n] => print (baseName n ++ "\n")
  | [n, ending] => print (withoutEnding ending (baseName n) ++ "\n")
  | _ =>
    let extra := names.getD 2 ""
    misuse s!"extra operand {quotedName extra}"

def dirname : Job Unit := do
  let (_, names) ← options ⟨"z", "", []⟩
  if names.isEmpty then misuse "missing operand"
  for n in names do
    print (directoryName n ++ "\n")

/-- A decimal number: the number without its point, and how many digits stand behind it. -/
def decimal? (s : String) : Option (Int × Nat) :=
  let (negative, t) := match s.toList with
    | '-' :: t => (true, t)
    | '+' :: t => (false, t)
    | t => (false, t)
  let whole := t.takeWhile Char.isDigit
  let (fraction, rest) := match t.drop whole.length with
    | '.' :: r => (r.takeWhile Char.isDigit, r.dropWhile Char.isDigit)
    | r => ([], r)
  if !rest.isEmpty || (whole.isEmpty && fraction.isEmpty) then none
  else
    let n := (digits 10 0 (whole ++ fraction)).1
    some (if negative then -(n : Int) else n, fraction.length)

def decimalText (n : Int) (places : Nat) : String :=
  (if n < 0 then "-" else "") ++ String.ofList (pointed (toString n.natAbs).toList places)

def series : Nat → Int → Int → Int → List Int
  | 0, _, _, _ => []
  | n + 1, first, step, last =>
    if (0 < step && last < first) || (step < 0 && first < last) then []
    else first :: series n (first + step) step last

def isNegative (w : String) : Bool :=
  match w.toList with
  | '-' :: c :: _ => c.isDigit || c == '.'
  | _ => false

def seq : Job Unit := do
  let args := (← get).call.args
  let lead := args.takeWhile (!isNegative ·)
  let o : Options := ⟨"w", "sf", [("separator", 's'), ("equal-width", 'w'), ("format", 'f')]⟩
  let (given, operands) ← o.parse true 1 (lead.length + 1) lead
  let operands := operands ++ args.drop lead.length
  let numbers ← operands.mapM fun w =>
    match decimal? w with
    | some n => pure n
    | none => misuse s!"invalid floating point argument: '{w}'"
  let (first, step, last) ← match numbers with
    | [] => misuse "missing operand"
    | [last] => pure ((1, 0), (1, 0), last)
    | [first, last] => pure (first, (1, 0), last)
    | [first, step, last] => pure (first, step, last)
    | _ =>
      let extra := operands.getD 3 ""
      misuse s!"extra operand {quotedName extra}"
  if step.1 == 0 then
    let w := operands.getD 1 ""
    misuse s!"invalid Zero increment value: '{w}'"
  let places := max first.2 step.2
  let all := max places last.2
  let scaled (x : Int × Nat) : Int := x.1 * (Nat.pow 10 (all - x.2) : Nat)
  let values := series 1000000 (scaled first) (scaled step) (scaled last)
  let unscale (n : Int) : Int := n / (Nat.pow 10 (all - places) : Nat)
  let texts := values.map fun n => decimalText (unscale n) places
  let texts ← match valueOf? given 'f' with
    | none => pure texts
    | some f => texts.mapM fun t =>
      match printed f [t] with
      | (p, none) => pure (String.ofList p.out)
      | _ => misuse s!"format '{f}' has no % directive"
  let width := texts.foldl (fun n t => max n t.length) 0
  let width := if gives given 'w' then max width (decimalText (unscale (scaled last)) places).length else 0
  let widened (t : String) : String :=
    let zeros := String.ofList (List.replicate (width - t.length) '0')
    match t.toList with
    | '-' :: ds => "-" ++ zeros ++ String.ofList ds
    | _ => zeros ++ t
  if !texts.isEmpty then
    print (((valueOf? given 's').getD "\n").intercalate (texts.map widened) ++ "\n")

abbrev ExprRead := EStateM String (List String)

def isInteger (s : String) : Bool :=
  match s.toList with
  | '-' :: c :: s => (c :: s).all Char.isDigit
  | c :: s => (c :: s).all Char.isDigit
  | [] => false

def integerOf (s : String) : ExprRead Int := do
  if !isInteger s then throw "non-integer argument"
  match s.toList with
  | '-' :: ds => pure (-((digits 10 0 ds).1 : Int))
  | ds => pure ((digits 10 0 ds).1 : Int)

def isNull (s : String) : Bool :=
  s.isEmpty || (isInteger s && s.toList.all fun c => c == '0' || c == '-')

/-- The find of a pattern at the start of a text: its group, or its length. -/
def matchedPart (s pattern : String) : ExprRead String := do
  match Regular.node? ⟨false, false, true⟩ pattern.toList with
  | .error m => throw m
  | .ok (e, groups) =>
    match (Regular.ofNode e groups).findHere 0 none s.toList with
    | some f =>
      pure (if 0 < groups then String.ofList (((f.groups[1]?).getD none).getD [])
        else toString f.length)
    | none => pure (if 0 < groups then "" else "0")

def exprLevels : List (List String) :=
  [["|"], ["&"], ["<", "<=", "=", "==", "!=", ">=", ">"], ["+", "-"], ["*", "/", "%"], [":"]]

def exprApply (op a b : String) : ExprRead String := do
  let truth (b : Bool) : String := if b then "1" else "0"
  let ordered (f : Ordering → Bool) : ExprRead String := do
    if isInteger a && isInteger b then
      pure (truth (f (compare (← integerOf a) (← integerOf b))))
    else pure (truth (f (compare a b)))
  let number (f : Int → Int → Int) : ExprRead String := do
    let m ← integerOf a
    let n ← integerOf b
    pure (toString (f m n))
  match op with
  | "|" => pure (if !isNull a then a else if isNull b then "0" else b)
  | "&" => pure (if isNull a || isNull b then "0" else a)
  | "<" => ordered (· == .lt)
  | "<=" => ordered (· != .gt)
  | "=" => ordered (· == .eq)
  | "==" => ordered (· == .eq)
  | "!=" => ordered (· != .eq)
  | ">=" => ordered (· != .lt)
  | ">" => ordered (· == .gt)
  | "+" => number (· + ·)
  | "-" => number (· - ·)
  | "*" => number (· * ·)
  | ":" => matchedPart a b
  | op => do
    let _ ← integerOf a
    if (← integerOf b) == 0 then throw "division by zero"
    number (if op == "/" then Int.tdiv else Int.tmod)

mutual

def exprLevel : Nat → List (List String) → String → ExprRead String
  | 0, _, _ => throw "syntax error"
  | n + 1, levels, before => do
    match levels with
    | [] => exprOne n before
    | level :: tighter => do
      let a ← exprLevel n tighter before
      exprMore n level tighter a

def exprMore : Nat → List String → List (List String) → String → ExprRead String
  | 0, _, _, _ => throw "syntax error"
  | n + 1, level, tighter, a => do
    match ← get with
    | op :: rest =>
      if level.contains op then
        set rest
        let b ← exprLevel n tighter op
        exprMore n level tighter (← exprApply op a b)
      else pure a
    | [] => pure a

def exprOne : Nat → String → ExprRead String
  | 0, _ => throw "syntax error"
  | n + 1, before => do
    match ← get with
    | [] => throw s!"syntax error: missing argument after '{before}'"
    | w :: rest => do
      set rest
      match w, rest with
      | "(", _ => do
        let a ← exprLevel n exprLevels "("
        match ← get with
        | ")" :: rest => do
          set rest
          pure a
        | [] =>
          let last := a
          throw s!"syntax error: expecting ')' after '{last}'"
        | w :: _ => throw s!"syntax error: expecting ')' instead of '{w}'"
      | ")", _ => throw "syntax error: unexpected ')'"
      | "+", _ :: _ =>
        match rest with
        | v :: rest => do
          set rest
          pure v
        | [] => pure w
      | "length", _ :: _ => do
        let s ← exprLevel n [] "length"
        pure (toString s.length)
      | "match", _ :: _ => do
        let s ← exprLevel n [] "match"
        let p ← exprLevel n [] s
        matchedPart s p
      | "index", _ :: _ => do
        let s ← exprLevel n [] "index"
        let cs ← exprLevel n [] s
        pure (toString (((s.toList.findIdx? cs.toList.contains).map (· + 1)).getD 0))
      | "substr", _ :: _ => do
        let s ← exprLevel n [] "substr"
        let i ← exprLevel n [] s
        let k ← exprLevel n [] i
        if isInteger i && isInteger k then
          let i ← integerOf i
          let k ← integerOf k
          if i ≤ 0 || k ≤ 0 then pure ""
          else pure (String.ofList ((s.toList.drop (i.toNat - 1)).take k.toNat))
        else pure ""
      | w, _ => pure w

end

def expr : Job Unit := do
  let args := (← get).call.args
  let args := if args.head? == some "--" then args.drop 1 else args
  if args.isEmpty then misuseAs 2 "missing operand"
  match exprLevel (16 * args.length + 32) exprLevels "" args with
  | .error m _ => failAs 2 m
  | .ok s rest =>
    match rest with
    | w :: _ => failAs 2 s!"syntax error: unexpected argument '{w}'"
    | [] => do
      print (s ++ "\n")
      setStatus (if isNull s then 1 else 0)

def isDuration (w : String) : Bool :=
  let s := w.toList
  let s := if (s.getLast?.map fun c => "smhd".toList.contains c).getD false then s.dropLast else s
  (decimal? (String.ofList s)).any (0 ≤ ·.1)

def sleep : Job Unit := do
  let (_, ws) ← options ⟨"", "", []⟩
  if ws.isEmpty then misuse "missing operand"
  let wrong := ws.filter (!isDuration ·)
  for w in wrong do
    complain s!"invalid time interval '{w}'"
  if !wrong.isEmpty then
    note "Try 'sleep --help' for more information.\n"

def printenv : Job Unit := do
  let (_, names) ← options ⟨"0", "", []⟩
  let known := (← get).call.environment
  if names.isEmpty then
    for (name, value) in known do
      print s!"{name}={value}\n"
  for n in names do
    match known.lookup n with
    | some v => print (v ++ "\n")
    | none => setStatus 1

def env : Job Unit := do
  let args := (← get).call.args
  let o : Options := ⟨"i0", "uC", [("ignore-environment", 'i'), ("unset", 'u'), ("chdir", 'C')]⟩
  let (given, words) ← o.parse true 125 (args.length + 1) args
  let (given, words) := if words.head? == some "-" then (⟨'i', ""⟩ :: given, words.drop 1) else (given, words)
  let isSetting (w : String) : Bool := w.toList.contains '='
  let settings := words.takeWhile isSetting
  let command := words.drop settings.length
  let inherited := (← get).call.environment
  let known := if gives given 'i' then [] else inherited
  let known := known.filter fun (name, _) => !given.any fun g => g.letter == 'u' && g.value == name
  let known := settings.foldl (fun known w =>
    let name := String.ofList (w.toList.takeWhile (· != '='))
    let value := String.ofList (w.toList.drop (name.length + 1))
    if (known.lookup name).isSome then known.map fun (k, v) => if k == name then (k, value) else (k, v)
    else known ++ [(name, value)]) known
  if command.isEmpty then
    for (name, value) in known do
      print s!"{name}={value}\n"
  else
    modify fun b => { b with environment := known }
    runProgram command

def runRest (options : Options) : Job Unit := do
  let args := (← get).call.args
  let (_, words) ← options.parse true 125 (args.length + 1) args
  if words.isEmpty then misuseAs 125 "missing operand"
  runProgram words

def nice : Job Unit := do
  let args := (← get).call.args
  let isLevel (a : String) : Bool := a.startsWith "-" && (digitsOnly? (String.ofList (a.toList.drop 1))).isSome
  let args := if args.head?.any isLevel then args.drop 1 else args
  let (_, words) ← (⟨"", "n", [("adjustment", 'n')]⟩ : Options).parse true 125 (args.length + 1) args
  if words.isEmpty then print "0\n" else runProgram words

/-- Runs a program, which always ends in time. -/
def timeout : Job Unit := do
  let args := (← get).call.args
  let o : Options := ⟨"v", "ks", [("kill-after", 'k'), ("signal", 's'), ("verbose", 'v')]⟩
  let (_, words) ← o.parse true 125 (args.length + 1) args
  match words with
  | time :: word :: words => do
    if !isDuration time then misuseAs 125 s!"invalid time interval '{time}'"
    runProgram (word :: words)
  | _ => do
    setStatus 125
    note "Try 'timeout --help' for more information.\n"
    quit

/-- The arguments in a text: words between blanks, where quotations and backslashes keep blanks; and the
quotation that is left open. -/
def wordsOf : Option Char → Option (List Char) → List Char → List String × Option Char
  | some '\\', word, c :: s => wordsOf none (some (c :: word.getD [])) s
  | some q, word, [] => ((word.map fun w => String.ofList w.reverse).toList, if q == '\\' then none else some q)
  | none, word, [] => ((word.map fun w => String.ofList w.reverse).toList, none)
  | some q, word, c :: s =>
    if c == q then wordsOf none word s
    else if c == '\n' then ([], some q)
    else wordsOf (some q) (some (c :: word.getD [])) s
  | none, word, c :: s =>
    if c == '\\' then wordsOf (some c) word s
    else if isSpace c then
      let (more, opened) := wordsOf none none s
      ((word.map fun w => String.ofList w.reverse).toList ++ more, opened)
    else if c == '\'' || c == '"' then wordsOf (some c) (some (word.getD [])) s
    else wordsOf none (some (c :: word.getD [])) s

def chunks {α : Type} (n : Nat) : Nat → List α → List (List α)
  | 0, _ => []
  | _, [] => []
  | k + 1, xs => xs.take n :: chunks n k (xs.drop n)

def xargs : Job Unit := do
  let args := (← get).call.args
  let o : Options := ⟨"0rtpxi", "nILPsdEa", [("null", '0'), ("no-run-if-empty", 'r'), ("max-args", 'n'),
    ("replace", 'I'), ("delimiter", 'd'), ("max-procs", 'P'), ("max-lines", 'L'), ("verbose", 't'),
    ("arg-file", 'a')]⟩
  let (given, command) ← o.parse true 1 (args.length + 1) args
  let command := if command.isEmpty then ["echo"] else command
  let s ← match valueOf? given 'a' with
    | none => input
    | some f =>
      match ← fileText f with
      | .ok s => pure s
      | .error e => fail s!"Cannot open input file {quotedName f}: {e.reason}"
  let parted (c : Char) : List String := ((s.splitOn c).filter (!·.isEmpty)).map String.ofList
  let (items, opened) : List String × Option Char :=
    match valueOf? given 'I', gives given '0', valueOf? given 'd' with
    | _, true, _ => (parted '\x00', none)
    | _, false, some d => (parted (if d == "\\n" then '\n' else d.toList.headD ' '), none)
    | some _, false, none =>
      ((((rows s).map fun (r : List Char) => r.dropWhile isSpace).filter (!·.isEmpty)).map fun r =>
        " ".intercalate (wordsOf none none r).1, none)
    | none, false, none => wordsOf none none s
  let most := ((valueOf? given 'n').orElse fun _ => valueOf? given 'L').bind digitsOnly?
  let calls : List (List String) := match valueOf? given 'I' with
    | some mark =>
      items.map fun (item : String) => command.map fun (w : String) => w.replace mark item
    | none =>
      if items.isEmpty then (if gives given 'r' || opened.isSome then [] else [command])
      else match most with
        | some (n + 1) => (chunks (n + 1) items.length items).map (command ++ ·)
        | _ => if opened.isSome then [] else [command ++ items]
  for words in calls do
    if gives given 't' then note (" ".intercalate words ++ "\n")
    runProgram words
  match opened with
  | some q => do
    let name := if q == '"' then "double" else "single"
    complain (s!"unmatched {name} quote; by default quotes are special to xargs unless " ++
      "you use the -0 option")
  | none => pure ()

/-- Where a path leads when nothing on it has to be there. -/
def wayWithout (here : List String) (path : String) : List String :=
  let start := if path.startsWith "/" then [] else here
  ((path.toList.splitOn '/').map String.ofList).foldl (fun way part =>
    if part.isEmpty || part == "." then way
    else if part == ".." then way.dropLast
    else way ++ [Octet.decode part]) start

def relativeWay (base way : List String) : String :=
  let shared := ((base.zip way).takeWhile fun (a, b) => a == b).length
  let ups := List.replicate (base.length - shared) ".."
  let parts := ups ++ way.drop shared
  if parts.isEmpty then "." else "/".intercalate parts

def realpath : Job Unit := do
  let (given, files) ← options ⟨"emLqsz", "R", [("relative-to", 'R'), ("canonicalize-missing", 'm'),
    ("canonicalize-existing", 'e'), ("no-symlinks", 's'), ("quiet", 'q')]⟩
  if files.isEmpty then misuse "missing operand"
  let here := (← disk).here
  let shown (way : List String) : String :=
    match valueOf? given 'R' with
    | none => "/" ++ "/".intercalate way
    | some base => relativeWay (wayWithout here base) way
  for f in files do
    if gives given 'm' then print (Octet.encode (shown (wayWithout here f)) ++ "\n")
    else match (← disk).locate (Octet.decode f) with
    | .ok (.vacant way _) =>
      if gives given 'e' then complain s!"{f}: No such file or directory"
      else print (Octet.encode (shown way) ++ "\n")
    | .ok s => print (Octet.encode (shown (wayOf s)) ++ "\n")
    | .error e => complain s!"{plainName f}: {e.reason}"

def readlink : Job Unit := do
  let (given, files) ← options ⟨"femnqsvz", "", []⟩
  if files.isEmpty then misuse "missing operand"
  for f in files do
    if gives given 'f' || gives given 'e' || gives given 'm' then
      match (← disk).locate (Octet.decode f) with
      | .ok s => print ("/" ++ Octet.encode ("/".intercalate (wayOf s)) ++ "\n")
      | .error _ => setStatus 1
    else setStatus 1

def statText (name : String) (size : Nat) (isDir : Bool) : List Char → List Char
  | '%' :: c :: s =>
    let text := match c with
      | 'n' => name
      | 's' => toString size
      | 'F' => if isDir then "directory" else if size == 0 then "regular empty file" else "regular file"
      | 'a' => if isDir then "755" else "644"
      | 'A' => if isDir then "drwxr-xr-x" else "-rw-r--r--"
      | 'U' => "root"
      | 'G' => "root"
      | 'u' => "0"
      | 'g' => "0"
      | 'h' => if isDir then "2" else "1"
      | '%' => "%"
      | c => String.ofList ['%', c]
    text.toList ++ statText name size isDir s
  | c :: s => c :: statText name size isDir s
  | [] => []

def stat : Job Unit := do
  let (given, files) ← options ⟨"Lft", "cp", [("format", 'c'), ("printf", 'p')]⟩
  if files.isEmpty then misuse "missing operand"
  let (form, ending) := match valueOf? given 'p' with
    | some form => ((unescaped form.toList).1, [])
    | none => (((valueOf? given 'c').getD "%n").toList, ['\n'])
  for f in files do
    match ← spot f with
    | .error e => complain s!"cannot statx {quotedName f}: {e.reason}"
    | .ok (.file _ c) =>
      printChars (statText f c.bytes.length false form ++ ending)
    | .ok _ => printChars (statText f 4096 true form ++ ending)

/-- Prints the same line over and over; nobody reads more of it than this. -/
def yes : Job Unit := do
  let args := (← get).call.args
  let line := (if args.isEmpty then "y" else " ".intercalate args) ++ "\n"
  print (String.join (List.replicate 20000 line))

def uname : Job Unit := do
  let (given, _) ← options ⟨"asnrvmpio", "", []⟩
  let parts := [('s', "Linux"), ('m', "x86_64"), ('o', "GNU/Linux")]
  let shown := parts.filterMap fun (c, s) => if gives given c then some s else none
  print (" ".intercalate (if shown.isEmpty then ["Linux"] else shown) ++ "\n")

end FragmentMerge.Script.Tool

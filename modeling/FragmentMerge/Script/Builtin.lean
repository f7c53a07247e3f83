import FragmentMerge.Script.Condition
import FragmentMerge.Script.Expand
import FragmentMerge.Script.Format

/-! The builtins of the shell that run no other commands. -/

namespace FragmentMerge.Script.Builtin

open Act

def numberArg (w : String) : Act Nat := do
  match natural? w with
  | some n => pure n
  | none => fault s!"Illegal number: {w}"

/-- Takes options from the front of arguments, each with its value; after a known letter a colon says
that it has one. -/
def optionsWithin (known : List Char) : Nat → List String → Act (List (Char × String) × List String)
  | 0, ws => pure ([], ws)
  | _, [] => pure ([], [])
  | n + 1, w :: ws => do
    match w.toList with
    | ['-', '-'] => pure ([], ws)
    | '-' :: c :: cs =>
      match known.dropWhile (· != c) with
      | [] => fault s!"Illegal option -{c}"
      | _ :: ':' :: _ =>
        match (if cs.isEmpty then ws.head? else some (String.ofList cs)) with
        | none => fault s!"No arg for -{c} option"
        | some value => do
          let (more, rest) ← optionsWithin known n (if cs.isEmpty then ws.drop 1 else ws)
          pure ((c, value) :: more, rest)
      | _ => do
        let next := if cs.isEmpty then ws else String.ofList ('-' :: cs) :: ws
        let (more, rest) ← optionsWithin known n next
        pure ((c, "") :: more, rest)
    | _ => pure ([], w :: ws)

def options (known : String) (ws : List String) : Act (List (Char × String) × List String) :=
  optionsWithin known.toList (ws.foldl (fun n w => n + w.length) 1) ws

/-- The arguments of a builtin that knows no options. -/
def operands (ws : List String) : Act (List String) := do
  let (_, ws) ← options "" ws
  pure ws

def checkName (name : String) : Act Unit := do
  if !isName name.toList then fault s!"{name}: bad variable name"

def echo (ws : List String) : Act Unit := do
  print (echoed ws)
  setStatus 0

def printf (ws : List String) : Act Unit := do
  match ← operands ws with
  | [] => fault "usage: printf format [arg ...]"
  | format :: args => do
    let (p, problem) := printed format args
    for (arg, what) in p.complaints do
      warn s!"{arg}: {what.text}"
    print (String.ofList p.out)
    setStatus (if p.complaints.isEmpty then 0 else 1)
    match problem with
    | none => pure ()
    | some .missing => fault "missing format character"
    | some (.invalid d) => fault s!"{d}: invalid directive"

def force (name value : String) (exported : Bool) : Act Unit :=
  modify fun s =>
    let v := (s.named? name).getD ⟨name, none, false, false⟩
    s.putVariable { v with value := some value, exported := v.exported || exported }

/-- Where `cd` looks for a directory: paths, each with whether it is to be printed. -/
def cdPaths (s : Shell) (path : String) : List (String × Bool) :=
  let first := ((path.toList.splitOn '/').headD [])
  if first.isEmpty || first == ['.'] || first == ['.', '.'] then [(path, false)]
  else
    let places := (((s.value? "CDPATH").getD "").toList.splitOn ':').map String.ofList
    (places.map fun p =>
      if p.isEmpty then (path, false) else (if p.endsWith "/" then p ++ path else p ++ "/" ++ path, true))
      ++ [(path, false)]

def cd (ws : List String) : Act Unit := do
  let (_, ws) ← options "LP" ws
  let s ← get
  let target := match ws with
    | [] => s.value? "HOME"
    | "-" :: _ => s.value? "OLDPWD"
    | w :: _ => some w
  let path := target.getD ""
  let there := (cdPaths s path).findSome? fun (p, shown) =>
    match s.disk.locate (Octet.decode p) with
    | .ok (.directory way) => some (way, shown)
    | _ => none
  if path.isEmpty then setStatus 0
  else match there with
  | some (way, shown) => do
    let old := s.here
    set { s with disk := { s.disk with here := way } }
    force "OLDPWD" old true
    let here := (← get).here
    force "PWD" here true
    if shown || ws.head? == some "-" then print (here ++ "\n")
    setStatus 0
  | none => fault s!"can't cd to {path}"

def pwd (ws : List String) : Act Unit := do
  let _ ← options "LP" ws
  print ((← get).here ++ "\n")
  setStatus 0

def test (ws : List String) : Act Unit := do
  let s ← get
  match s.judge (ws.length + 1) ws with
  | .ok b => setStatus (if b then 0 else 1)
  | .error m => fault m

def bracket (ws : List String) : Act Unit :=
  if ws.getLast? == some "]" then test ws.dropLast else fault "missing ]"

/-- Takes a line: its characters, with whether a backslash stood before them, what follows it, and
whether it ended. -/
def takeLine (raw : Bool) : List Char → List Marked × List Char × Bool
  | [] => ([], [], false)
  | '\n' :: s => ([], s, true)
  | '\\' :: s =>
    if raw then
      let (line, rest, ends) := takeLine raw s
      (('\\', false) :: line, rest, ends)
    else match s with
    | [] => ([], [], false)
    | '\n' :: s => takeLine raw s
    | c :: s =>
      let (line, rest, ends) := takeLine raw s
      ((c, true) :: line, rest, ends)
  | c :: s =>
    let (line, rest, ends) := takeLine raw s
    ((c, false) :: line, rest, ends)

def isGap (separators : List Char) (m : Marked) : Bool :=
  !m.2 && separators.contains m.1 && (m.1 == ' ' || m.1 == '\t' || m.1 == '\n')

def isSeparator (separators : List Char) (m : Marked) : Bool := !m.2 && separators.contains m.1

def dropGaps (separators : List Char) (s : List Marked) : List Marked := s.dropWhile (isGap separators)

/-- What the last variable gets: all that is left, without blanks at the end; a separator at the end of
the only field left counts for nothing. -/
def lastValue (separators : List Char) (s : List Marked) : List Marked :=
  let s := (s.reverse.dropWhile (isGap separators)).reverse
  let field := s.takeWhile (!isSeparator separators ·)
  match s.drop field.length with
  | [_] => field
  | m :: rest =>
    if isGap separators m then
      match dropGaps separators rest with
      | [m'] => if isSeparator separators m' then field else s
      | _ => s
    else if (dropGaps separators rest).isEmpty then field else s
  | [] => s

def parted (separators : List Char) : List String → List Marked → List (String × List Marked)
  | [], _ => []
  | [name], s => [(name, lastValue separators (dropGaps separators s))]
  | name :: names, s =>
    let s := dropGaps separators s
    let field := s.takeWhile (!isSeparator separators ·)
    let rest := dropGaps separators (s.drop field.length)
    let rest := match s.drop field.length, rest with
      | m :: _, m' :: more =>
        if isGap separators m then (if isSeparator separators m' then more else rest) else rest.drop 1
      | _, rest => rest
    (name, field) :: parted separators names rest

def read (ws : List String) : Act Unit := do
  let (given, ws) ← options "p:r" ws
  if ws.isEmpty then fault "arg count"
  let s ← get
  let (line, rest, ends) := takeLine ((given.lookup 'r').isSome) (s.input 0)
  set (s.leaveInput 0 rest)
  let line := line.filter (·.1 != '\x00')
  for (name, value) in parted s.separators ws line do
    checkName name
    assign name (String.ofList (value.map (·.1)))
  setStatus (if ends then 0 else 1)

def optionNames : List (Char × String) :=
  [('e', "errexit"), ('f', "noglob"), ('I', "ignoreeof"), ('i', "interactive"), ('m', "monitor"),
    ('n', "noexec"), ('s', "stdin"), ('x', "xtrace"), ('v', "verbose"), ('V', "vi"), ('E', "emacs"),
    ('C', "noclobber"), ('a', "allexport"), ('b', "notify"), ('u', "nounset")]

def setOption (c : Char) (on : Bool) : Act Unit := do
  if (optionNames.lookup c).isNone then fault s!"Illegal option -{c}"
  modify fun s =>
    let others := s.options.filter (· != c)
    { s with options := if on then others ++ [c] else others }

/-- The names of all options in the order in which they are listed; some have no letter. -/
def optionList : List (Option Char × String) :=
  (optionNames.map fun (c, name) => (some c, name)) ++
    [(some 'p', "privileged"), (none, "nolog"), (none, "debug")]

def listOptions (asCommands : Bool) : Act Unit := do
  if !asCommands then print "Current option settings\n"
  let s ← get
  for (c, name) in optionList do
    let on := match c with
      | some c => s.has c
      | none => false
    if asCommands then print ((if on then "set -o " else "set +o ") ++ name ++ "\n")
    else
      let gap := String.ofList (List.replicate (16 - name.length) ' ')
      print (name ++ gap ++ (if on then "on" else "off") ++ "\n")

def setNamed (name : String) (on : Bool) : Act Unit := do
  match optionNames.find? (·.2 == name) with
  | some (c, _) => setOption c on
  | none => fault s!"Illegal option -o {name}"

def quoted (s : String) : String := "'" ++ s.replace "'" "'\"'\"'" ++ "'"

def showVariables (lead : String) (vs : List Variable) : Act Unit := do
  for v in vs.mergeSort fun a b => a.name ≤ b.name do
    match v.value with
    | some x => print s!"{lead}{v.name}={quoted x}\n"
    | none => if !lead.isEmpty then print s!"{lead}{v.name}\n"

def setMany : List String → Act Unit
  | [] => pure ()
  | w :: ws => do
    match w.toList with
    | ['-'] => do
      setOption 'x' false
      setOption 'v' false
      modify fun s => if ws.isEmpty then s else { s with args := ws }
    | ['-', '-'] => modify fun s => { s with args := ws }
    | sign :: letters =>
      if sign != '-' && sign != '+' then modify fun s => { s with args := w :: ws }
      else do
        for c in letters do
          if c != 'o' then setOption c (sign == '-')
        if letters.contains 'o' then
          match ws with
          | name :: ws => do
            setNamed name (sign == '-')
            setMany ws
          | [] => listOptions (sign == '+')
        else setMany ws
    | [] => modify fun s => { s with args := w :: ws }

def setAll (ws : List String) : Act Unit := do
  if ws.isEmpty then showVariables "" ((← get).bindings.filter (·.value.isSome))
  else setMany ws
  setStatus 0

def shift (ws : List String) : Act Unit := do
  let n ← match ws with
    | [] => pure 1
    | w :: _ => numberArg w
  let s ← get
  if s.args.length < n then fault "can't shift that many"
  set { s with args := s.args.drop n, status := 0 }

def mark (lead : String) (change : Variable → Variable) (shown : Variable → Bool) (ws : List String) :
    Act Unit := do
  let (given, ws) ← options "p" ws
  if ws.isEmpty || !given.isEmpty then showVariables lead ((← get).bindings.filter shown)
  else
    for w in ws do
      let name := String.ofList (w.toList.takeWhile (· != '='))
      checkName name
      if w.toList.contains '=' then assign name (String.ofList (w.toList.drop (name.length + 1)))
      modify fun s => s.putVariable (change ((s.named? name).getD ⟨name, none, false, false⟩))
  setStatus 0

def exportAll : List String → Act Unit :=
  mark "export " (fun v => { v with exported := true }) (·.exported)

def readonly : List String → Act Unit :=
  mark "readonly " (fun v => { v with fixed := true }) (·.fixed)

def unset (ws : List String) : Act Unit := do
  let (given, names) ← options "vf" ws
  let functions := (given.getLast?.map (·.1)) == some 'f'
  for name in names do
    if functions then modify fun s => { s with functions := s.functions.filter (·.1 != name) }
    else
      checkName name
      let s ← get
      match s.named? name with
      | some v =>
        if v.fixed then fault s!"{name}: is read only"
        set (s.dropVariable name)
      | none => pure ()
  setStatus 0

/-- Keeps variables to be put back when the function ends; a dash stands for the options. -/
def keep (names : List String) : Act Unit :=
  modify fun s =>
    match s.locals with
    | [] => s
    | kept :: more =>
      let new := names.filter fun n => !kept.any (·.name == n)
      let old := new.map fun n =>
        if n == "-" then ⟨n, some (String.ofList s.options), false, false⟩
        else (s.named? n).getD ⟨n, none, false, false⟩
      { s with locals := (old ++ kept) :: more }

def makeLocal (ws : List String) : Act Unit := do
  if (← get).locals.isEmpty then fault "not in a function"
  for w in ws do
    let name := String.ofList (w.toList.takeWhile (· != '='))
    if name != "-" then checkName name
    keep [name]
    if w.toList.contains '=' then assign name (String.ofList (w.toList.drop (name.length + 1)))
  setStatus 0

def exit (ws : List String) : Act Unit := do
  match ws with
  | [] => pure ()
  | w :: _ => do setStatus (← numberArg w)
  throw .leave

def goBack (ws : List String) : Act Unit := do
  match ws with
  | [] => pure ()
  | w :: _ => do setStatus (← numberArg w)
  throw .back

def leaveLoops (halt : Nat → Halt) (ws : List String) : Act Unit := do
  let n ← match ws with
    | [] => pure 1
    | w :: _ => do
      let n ← numberArg w
      if n = 0 then fault s!"Illegal number: {w}"
      pure n
  setStatus 0
  let loops := (← get).loops
  if loops != 0 then throw (halt (min n loops))

def trap (ws : List String) : Act Unit := do
  let ws ← operands ws
  match ws with
  | [] => do
    for (_, name) in signals do
      match (← get).traps.lookup name with
      | some action => print s!"trap -- {quoted action} {name}\n"
      | none => pure ()
    setStatus 0
  | action :: names => do
    let (action, names) := if names.isEmpty || (natural? action).isSome then ("-", ws) else (action, names)
    setStatus 0
    for w in names do
      match signal? w with
      | none => do
        printError s!"trap: {w}: bad trap\n"
        setStatus 1
      | some (_, name) => modify fun s =>
        let others := s.traps.filter (·.1 != name)
        { s with traps := if action == "-" then others else (name, action) :: others }

/-- What `kill` asks for: a signal, and the processes that get it. -/
def killPlan (ws : List String) : Act (Nat × List String) := do
  match ws with
  | "-s" :: name :: ws =>
    match signal? name with
    | some (n, _) => pure (n, ws)
    | none => fault s!"invalid signal number or name: {name}"
  | w :: ws' =>
    match w.toList with
    | '-' :: c :: cs =>
      match signal? (String.ofList (c :: cs)) with
      | some (n, _) => pure (n, ws')
      | none => fault s!"Illegal option -{c}"
    | _ => pure (15, ws)
  | [] => pure (15, [])

def signalList : List String :=
  ((List.range 32).map fun n =>
    if n = 0 || n = 16 then toString n else (signals.lookup n).getD (toString n)) ++
  ["32", "33", "RTMIN"] ++ ((List.range 15).map fun i => s!"RTMIN+{i + 1}") ++
  ((List.range 14).map fun i => s!"RTMAX-{14 - i}") ++ ["RTMAX"]

def usageOfKill : String :=
  "Usage: kill [-s sigspec | -signum | -sigspec] [pid | job]... or\nkill -l [exitstatus]"

/-- Sends signals; gives the one that the shell sends itself, if it is not idle. -/
def kill (ws : List String) : Act (Option (Nat × String)) := do
  match ws with
  | "-l" :: ws => do
    match ws with
    | [] => for name in signalList do
        print (name ++ "\n")
    | w :: _ =>
      match signals.lookup ((← numberArg w) % 128) with
      | some name => print (name ++ "\n")
      | none => fault s!"invalid signal number or exit status: {w}"
    setStatus 0
    pure none
  | ws => do
    let (n, processes) ← killPlan ws
    if processes.isEmpty then fault usageOfKill
    setStatus 0
    let mut own := false
    for p in processes do
      if p == toString Shell.processNumber || p == "0" then own := true
      else match natural? p with
      | none => fault s!"Illegal number: {p}"
      | some k =>
        if !(← get).jobs.any (·.1 == k) then
          warn "No such process\n"
          setStatus 1
    pure (if own && n != 0 then (signals.lookup n).map fun name => (n, name) else none)

/-- Waits for commands in the background, which have all ended. -/
def wait (ws : List String) : Act Unit := do
  let ws ← operands ws
  setStatus 0
  for w in ws do
    let n ← numberArg w
    setStatus (((← get).jobs.lookup n).getD 127)

def rights (mask : Nat) : String :=
  let left := 7 - mask % 8
  String.ofList ((if left / 4 % 2 = 1 then ['r'] else []) ++ (if left / 2 % 2 = 1 then ['w'] else []) ++
    (if left % 2 = 1 then ['x'] else []))

/-- The mask that changes given by letters make of a mask: who, a sign and rights. -/
def symbolicMask? (changes : List (List Char)) (mask : Nat) : Option Nat :=
  changes.foldlM (fun mask change => do
    let who := change.takeWhile fun c => "ugoa".toList.contains c
    let some (sign, rights) := (match change.drop who.length with
      | [] => none
      | sign :: rights => some (sign, rights)) | none
    if !"+-=".toList.contains sign || !rights.all fun c => "rwxXst".toList.contains c then none
    let bits := (if rights.contains 'r' then 4 else 0) + (if rights.contains 'w' then 2 else 0) +
      (if rights.contains 'x' then 1 else 0)
    let part (c : Char) (place : Nat) : Nat :=
      let old := 7 - mask / place % 8
      let meant := who.isEmpty || who.contains 'a' || who.contains c
      let new := if !meant then old
        else if sign == '+' then old ||| bits
        else if sign == '-' then old &&& (7 - bits)
        else bits
      (7 - new) * place
    pure (part 'u' 64 + part 'g' 8 + part 'o' 1)) mask

/-- Shows or sets the rights that new files do not get. They are kept, but nobody asks for them. -/
def umask (ws : List String) : Act Unit := do
  let (given, ws) ← options "S" ws
  match ws with
  | [] => do
    let n := (← get).mask
    let ds := String.ofList (Nat.toDigits 8 n)
    if given.isEmpty then print (String.ofList (List.replicate (4 - ds.length) '0') ++ ds ++ "\n")
    else print s!"u={rights (n / 64)},g={rights (n / 8)},o={rights n}\n"
  | w :: _ =>
    if w.toList.all isOctal then
      modify fun s => { s with mask := (digits 8 0 w.toList).1 % 512 }
    else if (w.toList.head?.map Char.isDigit).getD false then fault s!"Illegal number: {w}"
    else match symbolicMask? (w.toList.splitOn ',') (← get).mask with
    | some mask => modify fun s => { s with mask }
    | none => fault s!"Illegal mode: {w}"
  setStatus 0

def optionOf? (letters : List Char) (c : Char) : Option Bool :=
  match letters.dropWhile (· != c) with
  | _ :: ':' :: _ => some true
  | _ :: _ => some false
  | [] => none

def getopts (ws : List String) : Act Unit := do
  match ws with
  | letters :: name :: args => do
    let s ← get
    let args := if args.isEmpty then s.args else args
    let quiet := letters.startsWith ":"
    let known := letters.toList.filter fun c => !(quiet && c == ':' && letters.length == 1)
    let known := if quiet then known.drop 1 else known
    let index := ((s.value? "OPTIND").bind natural?).getD 1
    let arg := args[index - 1]?
    let offset := if s.optionOffset == 0 then 1 else s.optionOffset
    let finish (c : String) (next : Nat) (offset : Nat) (status : Nat) : Act Unit := do
      modify fun s => { s with optionOffset := offset }
      force "OPTIND" (toString next) false
      assign name c
      setStatus status
    match arg.map String.toList with
    | some ('-' :: c :: cs) =>
      if c == '-' && cs.isEmpty then finish "?" (index + 1) 0 1
      else
        let letter := ((c :: cs)[offset - 1]?).getD '?'
        let rest := (c :: cs).drop offset
        let (next, nextOffset) := if rest.isEmpty then (index + 1, 0) else (index, offset + 1)
        match (if letter == ':' then none else optionOf? known letter) with
        | none => do
          if quiet then force "OPTARG" (String.ofList [letter]) false
          else
            modify fun s => s.dropVariable "OPTARG"
            printError s!"Illegal option -{letter}\n"
          finish "?" next nextOffset 0
        | some false => do
          modify fun s => s.dropVariable "OPTARG"
          finish (String.ofList [letter]) next nextOffset 0
        | some true =>
          if !rest.isEmpty then do
            force "OPTARG" (String.ofList rest) false
            finish (String.ofList [letter]) (index + 1) 0 0
          else match args[index]? with
          | some value => do
            force "OPTARG" value false
            finish (String.ofList [letter]) (index + 2) 0 0
          | none => do
            if quiet then
              force "OPTARG" (String.ofList [letter]) false
              finish ":" (index + 1) 0 0
            else
              modify fun s => s.dropVariable "OPTARG"
              printError s!"No arg for -{letter} option\n"
              finish "?" (index + 1) 0 0
    | _ => finish "?" index 0 1
  | _ => fault "Usage: getopts optstring var [arg...]"

end FragmentMerge.Script.Builtin

import FragmentMerge.Script.Builtin
import FragmentMerge.Script.Reader
import FragmentMerge.Script.Streams
import FragmentMerge.Script.Awk.Run
import FragmentMerge.Script.Tool.Table

/-! Runs scripts, to stand for the shell of the system: a run of the program can be followed without
starting a process. The scripts are those of `sh` with the usual tools on files and texts, and any other
program is not found. Nothing but the program itself depends on this.

Commands that would run side by side, such as those of a pipe, run one after another. Every function takes
a number that bounds how deep commands lie in one another and how often loops go round. -/

namespace FragmentMerge.Script

open Act

def keywordTexts : List String := Keyword.all.map Keyword.text

/-- The builtins that may be replaced by functions. -/
def plainBuiltins : List String :=
  ["[", "alias", "bg", "cd", "command", "echo", "false", "fg", "getopts", "hash", "jobs", "kill",
    "printf", "pwd", "read", "test", "true", "type", "ulimit", "umask", "unalias", "wait"]

def isBuiltin (name : String) : Bool := specialBuiltins.contains name || plainBuiltins.contains name

def programDirectories : List String := ["/usr/bin", "/bin"]

inductive Found where
  | program (path : String)
  /-- A file that may not be run. -/
  | denied
  | missing
  deriving DecidableEq, Repr

namespace Shell

/-- Where a program of a name lies, on the way that the shell looks for programs; or a file that is
in the way. -/
def programPath (s : Shell) (name : String) : Found :=
  let path := (s.value? "PATH").getD "/usr/bin"
  let look (found : Found) (d : String) : Found :=
    match found with
    | .program _ => found
    | found =>
      let p := if d.isEmpty then name else d ++ "/" ++ name
      if programDirectories.contains d && Tool.isProgram name then .program p
      else match s.disk.locate (Octet.decode p) with
      | .ok (.file way _) => if s.runnable.contains way then .program p else .denied
      | _ => found
  if name.isEmpty then .missing
  else ((path.toList.splitOn ':').map String.ofList).foldl look .missing

def programPath? (s : Shell) (name : String) : Option String :=
  match s.programPath name with
  | .program p => some p
  | _ => none

/-- A fresh shell on the same disk and the same streams. -/
def fresh (s : Shell) (name : String) (args : List String) (environment : List (String × String)) :
    Shell :=
  { Shell.start s.disk environment with
    runnable := s.runnable, streams := s.streams, numbers := s.numbers, texts := s.texts,
    count := s.count, name, args, mask := s.mask, traps := s.traps.filter (·.2.isEmpty) }

/-- The shell after another one that it started; of what that one did, the disk and the streams
stay. -/
def after (s : Shell) (inner : Shell) : Shell :=
  { s with
    disk := { inner.disk with here := s.disk.here }
    runnable := inner.runnable, streams := inner.streams, texts := inner.texts, count := inner.count
    status := inner.status % 256 }

end Shell

/-- Calls a tool on the streams of the shell; gives what it does, and the variables for the programs that
it has run. -/
def useTool (tool : Job Unit) (name : String) (args : List String)
    (environment : List (String × String)) : Act (List Event × List (String × String)) := do
  let s ← get
  let size := match s.stream? 0 with
    | some (.file way _ _) => some (Shell.fileText s.disk way).length
    | _ => none
  let target := match s.stream? 1 with
    | some (.file way _ _) => some way
    | _ => none
  let b := tool.perform ⟨name, args, s.input 0, size, target, environment, s.disk, s.runnable⟩
  let s := { s with disk := b.disk, runnable := b.runnable, status := b.status }
  let s := match b.rest with
    | some rest => s.leaveInput 0 rest
    | none => s
  set s
  pure (b.events.reverse, b.environment)

/-- Looks for programs, which are found anew whenever they are called. -/
def hash (ws : List String) : Act Unit := do
  let (_, names) ← Builtin.options "r" ws
  setStatus 0
  for name in names do
    let s ← get
    if !isBuiltin name && (s.functions.lookup name).isNone && (s.programPath? name).isNone then
      warn s!"{name}: not found"
      setStatus 1

/-- The command that `command` runs; none if it is asked for something else. -/
def commanded? : List String → Option (List String)
  | [] => none
  | w :: ws =>
    match w.toList with
    | ['-', '-'] => if ws.isEmpty then none else some ws
    | '-' :: c :: cs => if (c :: cs).all (· == 'p') then commanded? ws else none
    | _ => some (w :: ws)

/-- Runs a builtin that runs no other commands; tells whether there is one. -/
def runBuiltin (name : String) (ws : List String) : Act Bool := do
  let does (a : Act Unit) : Act Bool := do
    a
    pure true
  match name with
  | ":" => does (setStatus 0)
  | "true" => does (setStatus 0)
  | "false" => does (setStatus 1)
  | "echo" => does (Builtin.echo ws)
  | "printf" => does (Builtin.printf ws)
  | "cd" => does (Builtin.cd ws)
  | "pwd" => does (Builtin.pwd ws)
  | "test" => does (Builtin.test ws)
  | "[" => does (Builtin.bracket ws)
  | "read" => does (Builtin.read ws)
  | "set" => does (Builtin.setAll ws)
  | "shift" => does (Builtin.shift ws)
  | "export" => does (Builtin.exportAll ws)
  | "readonly" => does (Builtin.readonly ws)
  | "unset" => does (Builtin.unset ws)
  | "local" => does (Builtin.makeLocal ws)
  | "exit" => does (Builtin.exit ws)
  | "return" => does (Builtin.goBack ws)
  | "break" => does (Builtin.leaveLoops .stop ws)
  | "continue" => does (Builtin.leaveLoops .again ws)
  | "trap" => does (Builtin.trap ws)
  | "wait" => does (Builtin.wait ws)
  | "umask" => does (Builtin.umask ws)
  | "getopts" => does (Builtin.getopts ws)
  | "fg" => does (fault "No current job")
  | "bg" => does (fault "No current job")
  | "jobs" => does do
    let _ ← Builtin.options "lp" ws
    setStatus 0
  | "hash" => does (hash ws)
  | name =>
    if ["times", "ulimit", "alias", "unalias"].contains name then does (setStatus 0)
    else pure false

def describe (name : String) (short : Bool) : Act Unit := do
  let s ← get
  let say (text : String) : Act Unit := do
    print ((if short then name else name ++ text) ++ "\n")
    setStatus 0
  if keywordTexts.contains name then say " is a shell keyword"
  else if (s.functions.lookup name).isSome then say " is a shell function"
  else if specialBuiltins.contains name then say " is a special shell builtin"
  else if isBuiltin name then say " is a shell builtin"
  else
    let path := if name.toList.contains '/' then
        match s.disk.locate (Octet.decode name) with
        | .ok (.file way _) => if s.runnable.contains way then some name else none
        | _ => none
      else s.programPath? name
    match path with
    | some path => do
      print (if short then path ++ "\n" else s!"{name} is {path}\n")
      setStatus 0
    | none => do
      if !short then print s!"{name}: not found\n"
      setStatus 127

/-- What the first line of a file says about the program that reads it. -/
def interpreter? (text : List Char) : Option (List String) :=
  match text with
  | '#' :: '!' :: s =>
    some (Tool.wordsOf none none (s.takeWhile (· != '\n'))).1
  | _ => none

def baseOfProgram (path : String) : Option String :=
  programDirectories.findSome? fun d =>
    if path.startsWith (d ++ "/") then
      let name := String.ofList (path.toList.drop (d.length + 1))
      if Tool.isProgram name then some name else none
    else none

def signalText (n : Nat) : String :=
  match n with
  | 1 => "Hangup\n"
  | 3 => "Quit\n"
  | 6 => "Aborted\n"
  | 9 => "Killed\n"
  | 11 => "Segmentation fault\n"
  | 14 => "Alarm clock\n"
  | 15 => "Terminated\n"
  | _ => ""

def keepingStreams (a : Act Unit) : Act Unit := do
  let numbers := (← get).numbers
  let h ← caught a
  modify fun s => { s with numbers }
  match h with
  | some h => throw h
  | none => pure ()

def trace (text : String) : Act Unit := do
  if (← get).has 'x' then printError s!"+ {text}\n"

/-- Leaves the shell after a failure, where it is asked to. -/
def checkFailure (tested : Bool) : Act Unit := do
  let s ← get
  if !tested && s.status != 0 && s.has 'e' then throw .leave

def refuse (name reason : String) (status : Nat) : Act Unit := do
  warn s!"{name}: {reason}"
  setStatus status

/-- What a shell is called with. The script is the first argument, the input, or else the file that the
first argument names. -/
structure ShellCall where
  options : List Char
  isGiven : Bool
  isInput : Bool
  args : List String
  deriving DecidableEq, Repr

namespace ShellCall

def turn (c : ShellCall) (option : Char) (on : Bool) : Except String ShellCall :=
  if option == 'c' then .ok { c with isGiven := true }
  else if option == 's' then .ok { c with isInput := on }
  else if (Builtin.optionNames.lookup option).isSome then
    let others := c.options.filter (· != option)
    .ok { c with options := if on then others ++ [option] else others }
  else .error s!"Illegal option -{option}"

def turnNamed (c : ShellCall) (name : String) (on : Bool) : Except String ShellCall :=
  match Builtin.optionNames.find? (·.2 == name) with
  | some (option, _) => c.turn option on
  | none => .error s!"Illegal option -o {name}"

/-- Reads arguments; `named` tells for names of options that are still to come whether they are turned
on. -/
def read (c : ShellCall) (named : List Bool) : List String → Except String ShellCall
  | [] => .ok c
  | w :: ws =>
    match named, w.toList with
    | on :: named, _ => do read (← c.turnNamed w on) named ws
    | [], ['-'] => .ok { c with args := ws }
    | [], ['-', '-'] => .ok { c with args := ws }
    | [], sign :: letters =>
      if sign == '-' || sign == '+' then do
        let on := sign == '-'
        let c ← (letters.filter (· != 'o')).foldlM (fun c l => c.turn l on) c
        read c ((letters.filter (· == 'o')).map fun _ => on) ws
      else .ok { c with args := w :: ws }
    | [], [] => .ok { c with args := w :: ws }

def ofArguments (args : List String) : Except String ShellCall := do
  let c ← read ⟨[], false, false, []⟩ [] args
  if c.isGiven && c.args.isEmpty then throw "-c requires an argument"
  pure c

end ShellCall

def checkLost (name : String) : Act Unit := do
  if (← get).lost then
    modify fun s => { s with lost := false }
    warn s!"{name}: I/O error"
    setStatus 1

mutual

/-- Runs a command; a failure of one that is tested does not end the shell. -/
def eval : Nat → Bool → Command → Act Unit
  | 0, _, _ => throw .leave
  | n + 1, tested, c => do
    if (← get).has 'n' then pure ()
    else match c with
    | .nothing => pure ()
    | .simple line sets words rs => do
      modify fun s => { s with line, taken := none }
      simple n tested sets words rs
      checkFailure tested
    | .pipe cs => do
      pipe n tested none cs
      checkFailure tested
    | .both a b => do
      eval n true a
      if (← get).status = 0 then eval n tested b
    | .either a b => do
      eval n true a
      if (← get).status != 0 then eval n tested b
    | .next a b => do
      eval n tested a
      eval n tested b
    | .negated c => do
      eval n true c
      setStatus (if (← get).status = 0 then 1 else 0)
    | .background c => do
      let run : Act Unit := do
        modify fun s => s.opening 0 .nowhere
        eval n tested c
      keepingStreams (subshell n run)
      modify fun s =>
        { s with jobs := (Shell.processNumber + 1 + s.jobs.length, s.status) :: s.jobs, status := 0 }
    | .subshell line c rs => do
      modify fun s => { s with line }
      let run : Act Unit := do
        redirectAll (output n) rs
        eval n tested c
      keepingStreams (subshell n run)
      checkFailure tested
    | .redirected line c rs => do
      modify fun s => { s with line }
      let run : Act Unit := do
        match ← caught (redirectAll (output n) rs) with
        | some .fault => pure ()
        | some h => throw h
        | none => eval n tested c
      keepingStreams run
    | .choose test yes no => do
      eval n true test
      if (← get).status = 0 then eval n tested yes
      else do
        setStatus 0
        eval n tested no
    | .loop untilTrue test body => do
      modify fun s => { s with loops := s.loops + 1 }
      loop n tested untilTrue test body 0
    | .each line name words body => do
      modify fun s => { s with line }
      let items ← allFields (output n) words
      setStatus 0
      modify fun s => { s with loops := s.loops + 1 }
      each n tested name body items
    | .select line word branches => do
      modify fun s => { s with line }
      let w ← single (output n) false word
      setStatus 0
      select n tested w.toList branches
    | .define name body => do
      modify fun s =>
        { s with functions := (name, body) :: s.functions.filter (·.1 != name), status := 0 }

/-- Runs the body of a loop; tells whether the loop goes on. -/
def body : Nat → Bool → Command → Act Bool
  | 0, _, _ => throw .leave
  | n + 1, tested, c => do
    match ← caught (eval n tested c) with
    | none => pure true
    | some (.stop k) => do
      modify fun s => { s with loops := s.loops - 1 }
      if 1 < k then throw (.stop (k - 1))
      pure false
    | some (.again k) =>
      if 1 < k then do
        modify fun s => { s with loops := s.loops - 1 }
        throw (.again (k - 1))
      else pure true
    | some h => throw h

/-- Goes round a loop; `last` is the status of the last round. -/
def loop : Nat → Bool → Bool → Command → Command → Nat → Act Unit
  | 0, _, _, _, _, _ => throw .leave
  | n + 1, tested, untilTrue, test, c, last => do
    if ← body n true test then
      if ((← get).status = 0) = untilTrue then do
        setStatus last
        modify fun s => { s with loops := s.loops - 1 }
      else if ← body n tested c then loop n tested untilTrue test c (← get).status

def each : Nat → Bool → String → Command → List String → Act Unit
  | 0, _, _, _, _ => throw .leave
  | _, _, _, _, [] => modify fun s => { s with loops := s.loops - 1 }
  | n + 1, tested, name, c, item :: items => do
    assign name item
    if ← body n tested c then each n tested name c items

def select : Nat → Bool → List Char → List (List Word × Command) → Act Unit
  | 0, _, _, _ => throw .leave
  | _, _, _, [] => pure ()
  | n + 1, tested, text, (patterns, c) :: branches => do
    if ← anyFits n text patterns then eval n tested c
    else select n tested text branches

def anyFits : Nat → List Char → List Word → Act Bool
  | 0, _, _ => throw .leave
  | _, _, [] => pure false
  | n + 1, text, p :: ps => do
    if fits (← pattern (output n) p) text then pure true else anyFits n text ps

def pipe : Nat → Bool → Option (List Char) → List Command → Act Unit
  | 0, _, _, _ => throw .leave
  | _, _, _, [] => pure ()
  | n + 1, tested, input, c :: cs => do
    let lead (s : Shell) : Shell :=
      match input with
      | some text => s.opening 0 (.source text)
      | none => s
    let place := (lead (← get)).streams.size
    let run : Act Unit := do
      modify fun s => if cs.isEmpty then lead s else (lead s).opening 1 (.sink "")
      subshell n (eval n tested c)
    keepingStreams run
    match cs with
    | [] => pure ()
    | cs =>
      let text := match (← get).streams[place]? with
        | some (.sink s) => s.toList
        | _ => []
      pipe n tested (some text) cs

def subshell : Nat → Act Unit → Act Unit
  | 0, _ => throw .leave
  | n + 1, a => do
    let s ← get
    set { s with traps := s.traps.filter (·.2.isEmpty), jobs := [] }
    let h ← caught a
    let h' ← caught (farewell n)
    let inner ← get
    set (s.after inner)
    match h, h' with
    | some (.signal k), _ => throw (.signal k)
    | _, some (.signal k) => throw (.signal k)
    | _, _ => pure ()

def farewell : Nat → Act Unit
  | 0 => throw .leave
  | n + 1 => do
    let s ← get
    match s.traps.lookup "EXIT" with
    | none => pure ()
    | some action => do
      set { s with traps := s.traps.filter (·.1 != "EXIT"), speaker := none }
      match ← caught (lines n false action) with
      | none => setStatus s.status
      | some .back => setStatus s.status
      | some h => throw h

def output : Nat → Command → Act String
  | 0, _ => throw .leave
  | n + 1, c => do
    let place := (← get).streams.size
    let run : Act Unit := do
      modify fun s => s.opening 1 (.sink "")
      subshell n (eval n false c)
    keepingStreams run
    let s ← get
    set { s with taken := some s.status }
    match s.streams[place]? with
    | some (.sink text) => pure text
    | _ => pure ""

def lines : Nat → Bool → String → Act Unit
  | 0, _, _ => throw .leave
  | n + 1, tested, text => do
    let saved := (← get).line
    linesFrom n tested (Scan.ofText text.toList 0)
    modify fun s => { s with line := saved }

def linesFrom : Nat → Bool → Scan → Act Unit
  | 0, _, _ => throw .leave
  | n + 1, tested, scan => do
    if scan.isDone then pure ()
    else match { scan with count := (← get).count }.readLine with
    | .error e _ => do
      modify fun s => { s with line := e.line }
      fault s!"Syntax error: {e.message}"
    | .ok c scan => do
      modify fun s => { s with texts := s.texts ++ scan.texts, count := scan.count }
      eval n tested c
      linesFrom n tested scan

def simple : Nat → Bool → List (String × Word) → List Word → List Redirect → Act Unit
  | 0, _, _, _, _ => throw .leave
  | n + 1, tested, sets, words, rs => do
    let ws ← allFields (output n) words
    match ws with
    | [] => do
      let run : Act Unit := do
        match ← caught (redirectAll (output n) rs) with
        | some .fault => pure ()
        | some h => throw h
        | none => do
          let texts ← assignAll n sets
          if !texts.isEmpty then trace (" ".intercalate texts)
          setStatus ((← get).taken.getD 0)
      keepingStreams run
    | name :: args => do
      let values ← values n sets
      trace (" ".intercalate (values.map (fun (k, v) => k ++ "=" ++ v) ++ ws))
      let special := specialBuiltins.contains name
      let run : Act Unit := do
        match ← caught (redirectAll (output n) rs) with
        | some .fault => if special then throw .fault
        | some h => throw h
        | none => withValues n tested values name args
      if name == "exec" && args.isEmpty then run else keepingStreams run

def assignAll : Nat → List (String × Word) → Act (List String)
  | 0, _ => throw .leave
  | _, [] => pure []
  | n + 1, (name, w) :: sets => do
    let value ← single (output n) true w
    assign name value
    pure ((name ++ "=" ++ value) :: (← assignAll n sets))

def values : Nat → List (String × Word) → Act (List (String × String))
  | 0, _ => throw .leave
  | _, [] => pure []
  | n + 1, (name, w) :: sets => do
    let value ← single (output n) true w
    pure ((name, value) :: (← values n sets))

/-- Runs a command with variables set for it. They stay set after a special builtin. -/
def withValues : Nat → Bool → List (String × String) → String → List String → Act Unit
  | 0, _, _, _, _ => throw .leave
  | n + 1, tested, sets, name, args => do
    let before := (← get).bindings
    for set in sets do
      assign set.1 set.2
    if specialBuiltins.contains name || sets.isEmpty then call n tested false name args
    else
      let mark (v : Variable) : Variable :=
        if sets.any (·.1 == v.name) then { v with exported := true } else v
      modify fun s => { s with bindings := s.bindings.map mark }
      let h ← caught (call n tested false name args)
      modify fun s =>
        let kept := s.bindings.filter fun v => !sets.any (·.1 == v.name)
        let old := before.filter fun v => sets.any (·.1 == v.name)
        { s with bindings := kept ++ old }
      match h with
      | some h => throw h
      | none => pure ()

/-- Calls a function, a builtin or a program. A `bare` call knows no functions and takes no builtin for
special. -/
def call : Nat → Bool → Bool → String → List String → Act Unit
  | 0, _, _, _, _ => throw .leave
  | n + 1, tested, bare, name, args => do
    let s ← get
    let special := !bare && specialBuiltins.contains name
    let own := if bare || special then none else s.functions.lookup name
    match own with
    | some body => callFunction n tested body args
    | none =>
      match (if name == "command" then commanded? args else none) with
      | some words => call n tested true (words.headD "") (words.drop 1)
      | none =>
        if isBuiltin name then do
          set { s with speaker := some name, lost := false }
          let h ← caught (builtin n tested name args)
          let h' ← caught (checkLost name)
          modify fun t => { t with speaker := s.speaker }
          match h.orElse fun _ => h' with
          | some .fault => if special then throw .fault
          | some h => throw h
          | none => pure ()
        else program n name args s.environment

def callFunction : Nat → Bool → Command → List String → Act Unit
  | 0, _, _, _ => throw .leave
  | n + 1, tested, body, args => do
    let s ← get
    set { s with args, loops := 0, locals := [] :: s.locals }
    let h ← caught (eval n tested body)
    modify fun t =>
      let old := t.locals.headD []
      let kept := t.bindings.filter fun v => !old.any (·.name == v.name)
      let (options, old) := old.partition (·.name == "-")
      { t with
        args := s.args, loops := s.loops, locals := s.locals
        options := ((options.head?.bind (·.value)).map String.toList).getD t.options
        bindings := kept ++ old.filter fun v => v.value.isSome || v.exported || v.fixed }
    match h with
    | none => pure ()
    | some .back => pure ()
    | some h => throw h

def builtin : Nat → Bool → String → List String → Act Unit
  | 0, _, _, _ => throw .leave
  | n + 1, tested, name, args => do
    match name with
    | "eval" =>
      if args.isEmpty then setStatus 0
      else do
        setStatus 0
        lines n tested (" ".intercalate args)
    | "." =>
      match ← Builtin.operands args with
      | [] => fault "filename argument required"
      | path :: _ => do
        let s ← get
        if !path.toList.contains '/' then fault s!"{path}: not found"
        match s.disk.read (Octet.decode path) with
        | .error e =>
          let reason := openReason e "No such file"
          fault s!"cannot open {path}: {reason}"
        | .ok c => do
          set { s with speaker := some path, status := 0 }
          match ← caught (lines n false (String.ofList (Octet.ofBytes c.bytes))) with
          | none => pure ()
          | some .back => pure ()
          | some h => throw h
    | "exec" =>
      match args with
      | [] => setStatus 0
      | name :: args => do
        let s ← get
        let environment := s.environment
        set { s with traps := s.traps.filter (·.2.isEmpty) }
        program n name args environment
        throw .leave
    | "command" => do
      let (given, names) ← Builtin.options "pvV" args
      setStatus 0
      match names, given.filter fun o => o.1 != 'p' with
      | name :: _, o :: _ => describe name (o.1 == 'v')
      | _, _ => pure ()
    | "type" => do
      setStatus 0
      let mut failed := 0
      for name in args do
        describe name false
        failed := max failed (← get).status
      setStatus failed
    | "kill" =>
      match ← Builtin.kill args with
      | none => pure ()
      | some (k, name) => do
        let s ← get
        match s.traps.lookup name with
        | some action => do
          set { s with speaker := none }
          lines n false action
          setStatus 0
        | none => if !idleSignals.contains k then throw (.signal k)
    | name => do
      let _ ← runBuiltin name args

def program : Nat → String → List String → List (String × String) → Act Unit
  | 0, _, _, _ => throw .leave
  | n + 1, name, args, environment => do
    let s ← get
    if name.isEmpty then refuse name "Permission denied" 127
    else if name.toList.contains '/' then file n name args environment
    else match s.programPath name with
    | .program path => file n path args environment
    | .denied => refuse name "Permission denied" 127
    | .missing => refuse name "not found" 127

def file : Nat → String → List String → List (String × String) → Act Unit
  | 0, _, _, _ => throw .leave
  | n + 1, name, args, environment => do
    let s ← get
    match baseOfProgram name with
    | some base => tool n base args environment
    | none =>
      match s.disk.locate (Octet.decode name) with
      | .ok (.file way c) =>
        if !s.runnable.contains way then refuse name "Permission denied" 126
        else
          let text := Octet.ofBytes c.bytes
          match interpreter? text with
          | none => freshShell n name args environment [] (String.ofList text)
          | some (path :: more) =>
            let words := if path.endsWith "/env" then more else path :: more
            let base := baseName (words.headD "")
            if base == "sh" || base == "dash" || base == "bash" then
              shell n base (words.drop 1 ++ name :: args) environment
            else if Tool.isProgram base then tool n base (words.drop 1 ++ name :: args) environment
            else refuse name "not found" 127
          | some [] => refuse name "not found" 127
      | .ok (.directory _) => refuse name "Permission denied" 126
      | _ => refuse name "not found" 127

/-- Runs a text in a shell that knows only the given variables. -/
def freshShell : Nat → String → List String → List (String × String) → List Char → String → Act Unit
  | 0, _, _, _, _, _ => throw .leave
  | n + 1, name, args, environment, options, text => do
    let s ← get
    let run : Act Unit := do
      set { s.fresh name args environment with options }
      lines n false text
    match ← caught (subshell n run) with
    | some (.signal k) => do
      set (s.after (← get))
      printError (signalText k)
      setStatus (128 + k)
    | some h => throw h
    | none => pure ()

def shell : Nat → String → List String → List (String × String) → Act Unit
  | 0, _, _, _ => throw .leave
  | n + 1, name, args, environment => do
    let complain (message : String) : Act Unit := do
      printError s!"{name}: 0: {message}\n"
      setStatus 2
    match ShellCall.ofArguments args with
    | .error message => complain message
    | .ok c =>
      match c.args with
      | text :: args =>
        if c.isGiven then freshShell n (args.headD name) (args.drop 1) environment c.options text
        else if c.isInput then input n name c.args c.options environment
        else do
          let s ← get
          match s.disk.read (Octet.decode text) with
          | .ok content =>
            let script := String.ofList (Octet.ofBytes content.bytes)
            freshShell n text args environment c.options script
          | .error .isDirectory => setStatus 0
          | .error e =>
            let reason := openReason e "No such file"
            complain s!"cannot open {text}: {reason}"
      | [] => input n name [] c.options environment

def input : Nat → String → List String → List Char → List (String × String) → Act Unit
  | 0, _, _, _, _ => throw .leave
  | n + 1, name, args, options, environment => do
    let s ← get
    set (s.leaveInput 0 [])
    freshShell n name args environment options (String.ofList (s.input 0))

def tool : Nat → String → List String → List (String × String) → Act Unit
  | 0, _, _, _ => throw .leave
  | n + 1, name, args, environment => do
    if name == "sh" || name == "dash" || name == "bash" then shell n name args environment
    else if name == "awk" || name == "mawk" then Awk.awk (command n environment) name args environment
    else if name == "which" then do
      let mut failed := 0
      for w in args do
        let found ← match baseOfProgram w with
          | some _ => pure (some w)
          | none => do pure ((← get).programPath? w)
        match found with
        | some path => print (path ++ "\n")
        | none => failed := 1
      setStatus (if args.isEmpty then 1 else failed)
    else match Tool.ofName? name with
    | none => do
      let s ← get
      set { s with speaker := some name }
      let h ← caught (builtin n false name args)
      modify fun t => { t with speaker := s.speaker }
      match h with
      | some .fault => pure ()
      | some h => throw h
      | none => pure ()
    | some job => do
      let (es, environment) ← useTool job name args environment
      happen n name es environment

/-- Runs a text for a program, on an input if there is one; gives what it prints if that is taken. -/
def command : Nat → List (String × String) → String → Option (List Char) → Bool → Act String
  | 0, _, _, _, _ => throw .leave
  | n + 1, environment, text, input, takes => do
    let s ← get
    let s : Shell := match input with
      | some t => s.opening 0 (.source t)
      | none => s
    let place := s.streams.size
    let run : Act Unit := do
      set (if takes then s.opening 1 (.sink "") else s)
      freshShell n "sh" [] environment [] text
    keepingStreams run
    match (← get).streams[place]? with
    | some (.sink text) => pure (if takes then text else "")
    | _ => pure ""

def happen : Nat → String → List Event → List (String × String) → Act Unit
  | 0, _, _, _ => throw .leave
  | _, _, [], _ => pure ()
  | n + 1, name, e :: es, environment => do
    match e with
    | .out text => do
      print text
      happen n name es environment
    | .err text => do
      printError text
      happen n name es environment
    | .run words => do
      let known ← requested n name words environment
      if known || name == "find" then happen n name es environment

def requested : Nat → String → List String → List (String × String) → Act Bool
  | 0, _, _, _ => throw .leave
  | n + 1, name, words, environment => do
    let s ← get
    let program := words.headD ""
    let before := s.status
    let path := if program.toList.contains '/' then some program else s.programPath? program
    let known := path.isSome
    if !known then do
      let shown := if name == "xargs" then program else quotedName program
      let lead := if name == "timeout" || name == "nohup" then "failed to run command " else ""
      printError s!"{name}: {lead}{shown}: No such file or directory\n"
      setStatus 127
    else do
      let quiet : Act Unit := do
        if name == "xargs" then modify fun s => s.opening 0 .nowhere
        file n (path.getD program) (words.drop 1) environment
      keepingStreams quiet
    let status := (← get).status
    if name == "xargs" then
      setStatus (if status = 127 || status = 126 then status else if status != 0 then 123 else before)
    else if name == "find" then setStatus before
    pure known

end

def startVariables (d : Disk) : List (String × String) :=
  [("HOME", "/root"), ("PATH", "/usr/local/sbin:/usr/local/bin:/usr/sbin:/usr/bin:/sbin:/bin"),
    ("PWD", Octet.encode d.hereText)]

def scriptLimit : Nat := 1000000

def printedOn (s : Shell) (place : Nat) : String :=
  match s.streams[place]? with
  | some (.sink text) => Octet.decode text
  | _ => ""

def run (script : String) (d : Disk) : Effect :=
  let s := Shell.start d (startVariables d)
  let all : Act (Option Nat) := do
    let h ← caught (lines scriptLimit false (Octet.encode script))
    let h' ← caught (farewell scriptLimit)
    match h, h' with
    | some (.signal k), _ => pure (some k)
    | _, some (.signal k) => pure (some k)
    | _, _ => pure none
  let finish (ended : Ended) (s : Shell) : Effect :=
    ⟨ended, printedOn s 1, printedOn s 2, { s.disk with here := d.here }⟩
  match all s with
  | .ok (some k) s => finish (.killed k) s
  | .ok none s => finish (.exited (s.status % 256)) s
  | .error _ s => finish (.exited (s.status % 256)) s

instance stand : SystemShell where
  run := run

end FragmentMerge.Script

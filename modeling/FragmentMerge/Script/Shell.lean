import FragmentMerge.Command.Shell
import FragmentMerge.Script.Octet
import FragmentMerge.Script.Syntax

/-! The state of a shell: its disk, its streams, its variables and functions. All texts in it are byte
texts; names on the disk are not. -/

namespace FragmentMerge.Script

/-- The signals by their numbers. Zero stands for the end of the shell. -/
def signals : List (Nat × String) := (0, "EXIT") :: signalNames

def signal? (w : String) : Option (Nat × String) :=
  signals.find? fun (n, name) => toString n == w || name == w.toUpper

/-- The signals that do nothing unless they are trapped. -/
def idleSignals : List Nat := [0, 17, 18, 23, 28]

/-- Where an open stream leads. Streams of several numbers may be one, and share what is left. -/
inductive Stream where
  /-- A text that is read. -/
  | source (rest : List Char)
  /-- A text that is written. -/
  | sink (text : String)
  | file (way : List String) (offset : Nat) (appends : Bool)
  | directory
  | nowhere

structure Variable where
  name : String
  /-- None for a name that is only marked. -/
  value : Option String
  exported : Bool
  fixed : Bool
  deriving DecidableEq, Repr

structure Shell where
  disk : Disk
  /-- Files that may be run. -/
  runnable : List (List String)
  streams : Array Stream
  /-- The open streams by their numbers. -/
  numbers : List (Nat × Nat)
  bindings : List Variable
  functions : List (String × Command)
  /-- Texts that stand below lines, and how many there have been. -/
  texts : List (Nat × Word)
  count : Nat
  name : String
  args : List String
  status : Nat
  options : List Char
  /-- How many loops are running. -/
  loops : Nat
  /-- The variables that running functions have to put back. -/
  locals : List (List Variable)
  traps : List (String × String)
  line : Nat
  /-- The builtin that complains. -/
  speaker : Option String
  /-- The status of the last command whose output was taken. -/
  taken : Option Nat
  /-- Commands that ran in the background, by their numbers, with their statuses; latest first. -/
  jobs : List (Nat × Nat)
  /-- How much of an argument with several options has been read. -/
  optionOffset : Nat
  /-- The rights that new files do not get. -/
  mask : Nat
  /-- Whether something was printed where nothing takes it. -/
  lost : Bool

inductive Halt where
  /-- The shell ends. -/
  | leave
  /-- A fault, which ends the shell unless it is in a plain builtin. -/
  | fault
  | stop (loops : Nat)
  | again (loops : Nat)
  | back
  | signal (n : Nat)
  deriving DecidableEq, Repr

abbrev Act := EStateM Halt Shell

namespace Shell

def processNumber : Nat := 4242

/-- The variables that a shell gives itself. -/
def ownVariables : List (String × String) :=
  [("IFS", " \t\n"), ("OPTIND", "1"), ("PPID", toString (processNumber - 1)), ("PS1", "# "),
    ("PS2", "> "), ("PS4", "+ ")]

def start (d : Disk) (environment : List (String × String)) : Shell where
  disk := d
  runnable := []
  streams := #[.source [], .sink "", .sink ""]
  numbers := [(0, 0), (1, 1), (2, 2)]
  bindings :=
    (environment.map fun (name, value) => ⟨name, some value, true, false⟩) ++
      ownVariables.map fun (name, value) => ⟨name, some value, false, false⟩
  functions := []
  texts := []
  count := 0
  name := "sh"
  args := []
  status := 0
  options := []
  loops := 0
  locals := []
  traps := []
  line := 1
  speaker := none
  taken := none
  jobs := []
  optionOffset := 0
  mask := 18
  lost := false

def stream? (s : Shell) (n : Nat) : Option Stream := do
  let i ← s.numbers.lookup n
  s.streams[i]?

def setStream (s : Shell) (n : Nat) (t : Stream) : Shell :=
  match s.numbers.lookup n with
  | some i => { s with streams := s.streams.setIfInBounds i t }
  | none => s

def fileText (d : Disk) (way : List String) : List Char :=
  match d.entry? way with
  | some (.file c) => Octet.ofBytes c.bytes
  | _ => []

def putText (d : Disk) (way : List String) (s : List Char) : Disk :=
  d.put way (.file (Content.ofBytes (Octet.toBytes s)))

def input (s : Shell) (n : Nat) : List Char :=
  match s.stream? n with
  | some (.source rest) => rest
  | some (.file way offset _) => (fileText s.disk way).drop offset
  | _ => []

def leaveInput (s : Shell) (n : Nat) (rest : List Char) : Shell :=
  match s.stream? n with
  | some (.source _) => s.setStream n (.source rest)
  | some (.file way _ appends) =>
    s.setStream n (.file way ((fileText s.disk way).length - rest.length) appends)
  | _ => s

def write (s : Shell) (n : Nat) (text : String) : Shell :=
  if text.isEmpty then s
  else match s.stream? n with
  | some (.file way offset appends) =>
    match s.disk.entry? way with
    | some (.file _) =>
      let old := fileText s.disk way
      let offset := if appends then old.length else offset
      let gap := List.replicate (offset - old.length) '\x00'
      let new := old.take offset ++ gap ++ text.toList ++ old.drop (offset + text.length)
      { s with disk := putText s.disk way new }.setStream n
        (.file way (offset + text.length) appends)
    | _ => s
  | some (.sink old) => s.setStream n (.sink (old ++ text))
  | _ => s

def opening (s : Shell) (n : Nat) (t : Stream) : Shell :=
  { s with streams := s.streams.push t,
           numbers := (n, s.streams.size) :: s.numbers.filter (·.1 != n) }

def closing (s : Shell) (n : Nat) : Shell := { s with numbers := s.numbers.filter (·.1 != n) }

def named? (s : Shell) (name : String) : Option Variable := s.bindings.find? (·.name == name)

def value? (s : Shell) (name : String) : Option String := (s.named? name).bind (·.value)

def putVariable (s : Shell) (v : Variable) : Shell :=
  if (s.named? v.name).isSome then
    { s with bindings := s.bindings.map fun w => if w.name == v.name then v else w }
  else { s with bindings := s.bindings ++ [v] }

def dropVariable (s : Shell) (name : String) : Shell :=
  { s with bindings := s.bindings.filter (·.name != name) }

def has (s : Shell) (option : Char) : Bool := s.options.contains option

/-- The variables that a program started by the shell knows. -/
def environment (s : Shell) : List (String × String) :=
  s.bindings.filterMap fun v => if v.exported then v.value.map fun x => (v.name, x) else none

def here (s : Shell) : String := Octet.encode s.disk.hereText

end Shell

namespace Act

def print (text : String) : Act Unit :=
  modify fun s =>
    if (s.numbers.lookup 1).isNone && !text.isEmpty then { s with lost := true } else s.write 1 text

def printError (text : String) : Act Unit := modify fun s => s.write 2 text

def setStatus (n : Nat) : Act Unit := modify fun s => { s with status := n }

def warn (message : String) : Act Unit := do
  let s ← get
  let speaker := match s.speaker with
    | some b => b ++ ": "
    | none => ""
  printError s!"{s.name}: {s.line}: {speaker}{message}\n"

def fault (message : String) : Act α := do
  warn message
  setStatus 2
  throw .fault

def assign (name value : String) : Act Unit := do
  let s ← get
  match s.named? name with
  | some v =>
    if v.fixed then fault s!"{name}: is read only"
    else set (s.putVariable { v with value := some value, exported := v.exported || s.has 'a' })
  | none => set (s.putVariable ⟨name, some value, s.has 'a', false⟩)

def caught (a : Act Unit) : Act (Option Halt) := do
  try
    a
    pure none
  catch h => pure (some h)

end Act

end FragmentMerge.Script

import FragmentMerge.Files.Disk
import FragmentMerge.Script.Number
import FragmentMerge.Script.Octet

/-! The tools that a script may call. A tool has arguments, an input and a disk; it prints, complains and
changes the disk. File names in complaints stand between quotes, always or where a shell would take them
for something else. Characters that cannot be shown are written with escapes. -/

namespace FragmentMerge.Script

/-- A call of a tool. The size of the input is known when it is a file, and so is the file that the
output goes to. -/
structure Call where
  name : String
  args : List String
  input : List Char
  inputSize : Option Nat
  target : Option (List String)
  environment : List (String × String)
  disk : Disk
  runnable : List (List String)

def isShown (c : Char) : Bool := ' ' ≤ c && c ≤ '~'

/-- Whether a character means something to a shell, where it is the first one or not. -/
def isTelling (first : Bool) (c : Char) : Bool :=
  !isShown c || " !\"$&'()*:;<=>?[\\^`|".toList.contains c || (first && (c == '#' || c == '~'))

def hiddenText (c : Char) : List Char :=
  let named := [('\x07', 'a'), ('\x08', 'b'), ('\x0c', 'f'), ('\n', 'n'), ('\r', 'r'), ('\t', 't'),
    ('\x0b', 'v')]
  match named.lookup c with
  | some l => ['\\', l]
  | none =>
    let ds := Nat.toDigits 8 c.toNat
    '\\' :: List.replicate (3 - ds.length) '0' ++ ds

/-- The inside of a quotation; `hides` is whether the character before could not be shown. -/
def quotedInside (hides : Bool) : List Char → List Char
  | [] => ['\'']
  | c :: s =>
    if isShown c then
      (if hides then ['\'', '\''] else []) ++ (if c == '\'' then ['\'', '\\', '\'', '\''] else [c]) ++
        quotedInside false s
    else
      (if hides then [] else ['\'', '$', '\'']) ++ hiddenText c ++ quotedInside true s

def quotedName (name : String) : String :=
  let s := name.toList
  if s.contains '\'' && s.all fun c => isShown c && !"\"$\\`!".toList.contains c then "\"" ++ name ++ "\""
  else String.ofList ('\'' :: quotedInside false s)

def plainName (name : String) : String :=
  let s := name.toList
  if s.isEmpty || s == ['\x7b'] || s == ['\x7d'] || s.zipIdx.any fun (c, i) => isTelling (i == 0) c then
    quotedName name
  else name

/-- What a tool does that is seen at once: it prints, it complains, or it has a program run. -/
inductive Event where
  | out (s : String)
  | err (s : String)
  | run (words : List String)
  deriving DecidableEq, Repr

/-- A tool at work: what it has done, latest first. `rest` is what it leaves of its input, if it reads it;
`environment` are the variables for the programs that it has run. -/
structure Bench where
  call : Call
  events : List Event
  status : Nat
  rest : Option (List Char)
  disk : Disk
  runnable : List (List String)
  environment : List (String × String)

abbrev Job := EStateM Unit Bench

structure Given where
  letter : Char
  value : String
  deriving DecidableEq, Repr

/-- The options that a tool knows: letters, letters with a value, and long names for letters. -/
structure Options where
  plain : String
  valued : String
  long : List (String × Char)

namespace Job

def quit : Job α := throw ()

def log (e : Event) : Job Unit := modify fun b => { b with events := e :: b.events }

def print (s : String) : Job Unit := if s.isEmpty then pure () else log (.out s)

/-- Prints where complaints go. -/
def note (s : String) : Job Unit := log (.err s)

def runProgram (words : List String) : Job Unit := log (.run words)

def printChars (s : List Char) : Job Unit := print (String.ofList s)

def setStatus (n : Nat) : Job Unit := modify fun b => { b with status := n }

def complainAs (status : Nat) (message : String) : Job Unit := do
  let name := (← get).call.name
  note s!"{name}: {message}\n"
  setStatus status

def complain (message : String) : Job Unit := complainAs 1 message

def failAs (status : Nat) (message : String) : Job α := do
  complainAs status message
  quit

def fail (message : String) : Job α := failAs 1 message

def misuseAs (status : Nat) (message : String) : Job α := do
  complainAs status message
  let name := (← get).call.name
  note s!"Try '{name} --help' for more information.\n"
  quit

def misuse (message : String) : Job α := misuseAs 1 message

def name : Job String := do pure (← get).call.name

def disk : Job Disk := do pure (← get).disk

def input : Job (List Char) := do
  let b ← get
  set { b with rest := some [] }
  pure (b.rest.getD b.call.input)

def change (f : Disk → Except Errno Disk) : Job (Except Errno Unit) := do
  match f (← disk) with
  | .ok d => do
    modify fun b => { b with disk := d }
    pure (.ok ())
  | .error e => pure (.error e)

/-- How many noughts are read where there is no end of them. -/
def zeroCount : Nat := 1048576

def fileText (path : String) : Job (Except Errno (List Char)) := do
  if path == "/dev/null" then pure (.ok [])
  else if path == "/dev/zero" then pure (.ok (List.replicate zeroCount '\x00'))
  else if path == "/dev/stdin" then pure (.ok (← input))
  else match (← disk).read (Octet.decode path) with
  | .ok c => pure (.ok (Octet.ofBytes c.bytes))
  | .error e => pure (.error e)

/-- What an operand names; a dash names the input. -/
def operandText (path : String) : Job (Except Errno (List Char)) := do
  if path == "-" then pure (.ok (← input)) else fileText path

def isDirectory (path : String) : Job Bool := do pure ((← disk).isDirectory (Octet.decode path))

def isFile (path : String) : Job Bool := do pure ((← disk).isFile (Octet.decode path))

def isThere (path : String) : Job Bool := do pure ((← isFile path) || (← isDirectory path))

def orInput (operands : List String) : List String := if operands.isEmpty then ["-"] else operands

end Job

namespace Options

def longName? (o : Options) (name : String) : Option Char :=
  match o.long.find? (·.1 == name) with
  | some (_, c) => some c
  | none =>
    match o.long.filter fun (full, _) => name.toList.isPrefixOf full.toList with
    | (_, c) :: more => if more.all (·.2 == c) then some c else none
    | [] => none

/-- Takes the letters of one argument, the first of them after a dash; `next` are the arguments after
it. -/
def letters (o : Options) (status : Nat) : List Char → List String →
    Job (List Given × List String)
  | [], next => pure ([], next)
  | c :: cs, next => do
    if o.plain.toList.contains c then
      let (more, next) ← letters o status cs next
      pure (⟨c, ""⟩ :: more, next)
    else if o.valued.toList.contains c then
      if !cs.isEmpty then pure ([⟨c, String.ofList cs⟩], next)
      else match next with
      | v :: next => pure ([⟨c, v⟩], next)
      | [] => Job.misuseAs status s!"option requires an argument -- '{c}'"
    else Job.misuseAs status s!"invalid option -- '{c}'"

def longOne (o : Options) (status : Nat) (text : List Char) (next : List String) :
    Job (Given × List String) := do
  let name := String.ofList (text.takeWhile (· != '='))
  let value := text.drop name.length
  match o.longName? name with
  | none => Job.misuseAs status s!"unrecognized option '--{name}'"
  | some c =>
    if o.valued.toList.contains c then
      match value, next with
      | _ :: value, next => pure (⟨c, String.ofList value⟩, next)
      | [], v :: next => pure (⟨c, v⟩, next)
      | [], [] => Job.misuseAs status s!"option '--{name}' requires an argument"
    else if value.isEmpty then pure (⟨c, ""⟩, next)
    else Job.misuseAs status s!"option '--{name}' doesn't allow an argument"

/-- Parts options from operands. Options may stand behind operands, unless `first`; two dashes end
them. -/
def parse (o : Options) (first : Bool) (status : Nat) : Nat → List String →
    Job (List Given × List String)
  | 0, args => pure ([], args)
  | _, [] => pure ([], [])
  | n + 1, arg :: args => do
    match arg.toList with
    | ['-', '-'] => pure ([], args)
    | '-' :: '-' :: text => do
      let (given, args) ← longOne o status text args
      let (more, operands) ← parse o first status n args
      pure (given :: more, operands)
    | '-' :: c :: cs => do
      let (given, args) ← letters o status (c :: cs) args
      let (more, operands) ← parse o first status n args
      pure (given ++ more, operands)
    | _ =>
      if first then pure ([], arg :: args)
      else do
        let (more, operands) ← parse o first status n args
        pure (more, arg :: operands)

end Options

namespace Job

def optionsAs (status : Nat) (o : Options) : Job (List Given × List String) := do
  let args := (← get).call.args
  o.parse false status (args.length + 1) args

def options (o : Options) : Job (List Given × List String) := optionsAs 1 o

end Job

def Job.perform (job : Job Unit) (c : Call) : Bench :=
  match job ⟨c, [], 0, none, c.disk, c.runnable, c.environment⟩ with
  | .ok _ b => b
  | .error _ b => b

def gives (given : List Given) (c : Char) : Bool := given.any (·.letter == c)

def valueOf? (given : List Given) (c : Char) : Option String :=
  ((given.filter (·.letter == c)).getLast?).map (·.value)

def rows (s : List Char) : List (List Char) :=
  match (s.splitOn '\n').reverse with
  | [] :: rs => rs.reverse
  | rs => rs.reverse

/-- The rows of a text with their line ends; the last one may have none. -/
def wholeRows (s : List Char) : List (List Char) :=
  let rs := s.splitOn '\n'
  (rs.dropLast.map (· ++ ['\n'])) ++ match rs.getLast? with
    | some [] => []
    | some r => [r]
    | none => []

def unrows (rs : List (List Char)) : List Char := rs.flatMap (· ++ ['\n'])

def rightAligned (width : Nat) (s : String) : String :=
  String.ofList (List.replicate (width - s.length) ' ') ++ s

def digitsOnly? (s : String) : Option Nat :=
  if !s.isEmpty && s.toList.all Char.isDigit then some (digits 10 0 s.toList).1 else none

end FragmentMerge.Script

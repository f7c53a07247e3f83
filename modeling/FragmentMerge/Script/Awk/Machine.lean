import FragmentMerge.Script.Streams
import FragmentMerge.Script.Tool.Regular
import FragmentMerge.Script.Awk.Syntax
import FragmentMerge.Script.Awk.Table

/-! The state of a running program of `awk`: its variables and arrays, the record and its fields, and the
files and commands that it has opened. -/

namespace FragmentMerge.Script.Awk

/-- What a name stands for. -/
inductive Cell where
  | value (v : Value)
  | array (index : Nat)
  /-- Nothing so far; if it becomes an array, then this one. -/
  | pending (index : Nat)
  deriving Inhabited

inductive Channel where
  | reads (rest : List Char)
  | writes
  /-- Gathers what a command is to read. -/
  | feeds (text : String)

structure Machine where
  shell : Shell
  globals : List (String × Cell)
  /-- The names of running functions, the innermost function first. -/
  frames : List (List (String × Cell))
  tables : Array Table
  record : Value
  fields : Array Value
  /-- What is printed, but not handed on yet. -/
  held : String
  /-- Those used last stand first. -/
  channels : List (String × Channel)
  /-- The place of the next argument. -/
  place : Nat
  /-- What is left of the file that is read; none before it is opened. -/
  rest : Option (List Char)
  isOver : Bool
  /-- The rules with a range that has begun. -/
  ranges : List Nat
  seed : Float
  status : Nat
  known : List (String × Regular)

inductive Stop where
  | next
  | nextFile
  | exit
  | stop
  | again
  | back (v : Value)
  | fault (message : String)
  | halt (h : Halt)

abbrev Work := EStateM Stop Machine

namespace Work

def act (a : Act α) : Work α := do
  let m ← get
  match a m.shell with
  | .ok v shell =>
    set { m with shell }
    pure v
  | .error h shell =>
    set { m with shell }
    throw (.halt h)

def wrong (message : String) : Work α := throw (.fault message)

def release : Work Unit := do
  let m ← get
  set { m with held := "" }
  act (Act.print m.held)

def newTable (t : Table) : Work Nat := do
  let m ← get
  set { m with tables := m.tables.push t }
  pure m.tables.size

def cell? (name : String) : Work (Option Cell) := do
  let m ← get
  pure (((m.frames.head?).bind fun f => f.lookup name).orElse fun _ => m.globals.lookup name)

def putIn (cells : List (String × Cell)) (name : String) (c : Cell) : List (String × Cell) :=
  if (cells.lookup name).isSome then cells.map fun e => if e.1 == name then (name, c) else e
  else (name, c) :: cells

def putCell (name : String) (c : Cell) : Work Unit :=
  modify fun m =>
    match m.frames with
    | f :: fs =>
      if (f.lookup name).isSome then { m with frames := putIn f name c :: fs }
      else { m with globals := putIn m.globals name c }
    | [] => { m with globals := putIn m.globals name c }

def global (name : String) : Work Value := do
  match (← get).globals.lookup name with
  | some (.value v) => pure v
  | _ => pure .unset

def setGlobal (name : String) (v : Value) : Work Unit :=
  modify fun m => { m with globals := putIn m.globals name (.value v) }

def form : Work String := do pure ((← global "CONVFMT").toText "%.6g")

def textOf (v : Value) : Work String := do pure (v.toText (← form))

def globalText (name : String) : Work String := do textOf (← global name)

def tableOf (name : String) : Work Nat := do
  match ← cell? name with
  | some (.array i) => pure i
  | some (.pending i) => do
    putCell name (.array i)
    pure i
  | some (.value .unset) => fresh
  | some (.value _) => wrong s!"type error in array {name}"
  | none => fresh
where
  fresh : Work Nat := do
    let i ← newTable .empty
    putCell name (.array i)
    pure i

def table (i : Nat) : Work Table := do pure ((← get).tables.getD i .empty)

def putTable (i : Nat) (t : Table) : Work Unit :=
  modify fun m => { m with tables := m.tables.setIfInBounds i t }

def regularText : Nat → Bool → List Char → List Char
  | 0, _, s => s
  | _, _, [] => []
  | n + 1, true, '\\' :: c :: s =>
    let d := ([('n', '\n'), ('t', '\t'), ('r', '\r'), ('f', '\x0c'), ('v', '\x0b')].lookup c).getD c
    d :: regularText n true s
  | n + 1, true, '[' :: ':' :: s =>
    let name := s.takeWhile Char.isAlpha
    match s.drop name.length with
    | ':' :: ']' :: rest => '[' :: ':' :: (name ++ ':' :: ']' :: regularText n true rest)
    | _ => '[' :: ':' :: regularText n true s
  | n + 1, true, c :: s => c :: regularText n (c != ']') s
  | n + 1, false, '\\' :: c :: s =>
    if isOctal c then
      let ds := ((c :: s).takeWhile isOctal).take 3
      '\\' :: Char.ofNat ((digits 8 0 ds).1 % 256) :: regularText n false ((c :: s).drop ds.length)
    else if c == 'n' || c == 't' then '\\' :: c :: regularText n false s
    else
      let named := [('a', '\x07'), ('b', '\x08'), ('f', '\x0c'), ('r', '\r'), ('v', '\x0b')]
      match named.lookup c with
      | some d => d :: regularText n false s
      | none => if c.isAlphanum || "<>'`".toList.contains c then c :: regularText n false s
        else '\\' :: c :: regularText n false s
  | n + 1, false, '[' :: '^' :: ']' :: s => '[' :: '^' :: ']' :: regularText n true s
  | n + 1, false, '[' :: ']' :: s => '[' :: ']' :: regularText n true s
  | n + 1, false, c :: s => c :: regularText n (c == '[') s

def regular (s : String) : Work Regular := do
  match (← get).known.lookup s with
  | some r => pure r
  | none =>
    match Regular.parse ⟨true, false, false⟩ (regularText s.length false s.toList) with
    | .ok r => do
      modify fun m => { m with known := (s, r) :: m.known }
      pure r
    | .error e => wrong s!"regular expression compile failed ({e})"

/-- The parts of a text between finds. An empty find parts nothing. -/
def partsOf (r : Regular) : Nat → List Char → List (List Char)
  | 0, s => [s]
  | n + 1, s =>
    match found (s.length + 1) 0 none s with
    | some f => s.take f.start :: partsOf r n (s.drop (f.start + f.length))
    | none => [s]
where
  /-- The first find that is not empty. -/
  found : Nat → Nat → Option Char → List Char → Option Find
    | 0, _, _, _ => none
    | n + 1, start, left, s =>
      match r.findFrom start left s with
      | none => none
      | some f =>
        if 0 < f.length then some f
        else
          let k := f.start - start
          match s.drop k with
          | [] => none
          | c :: rest => found n (f.start + 1) (some c) rest

def blankParts (s : List Char) : List (List Char) :=
  (s.splitOnP isSpace).filter (!·.isEmpty)

def parts (separator : String) (isRegular : Bool) (s : List Char) : Work (List (List Char)) := do
  if s.isEmpty then pure []
  else if isRegular then do pure (partsOf (← regular separator) (s.length + 1) s)
  else match separator.toList with
  | [] => pure (s.map ([·]))
  | [' '] => pure (blankParts s)
  | [c] => pure (s.splitOn c)
  | _ => do pure (partsOf (← regular separator) (s.length + 1) s)

def fieldsOf (s : String) : Work (List (List Char)) := do
  let separator ← globalText "FS"
  let whole ← globalText "RS"
  if whole.isEmpty && separator != " " then
    let rows ← (s.toList.splitOn '\n').mapM (parts separator false)
    pure rows.flatten
  else parts separator false s.toList

def setFieldCount (n : Nat) : Work Unit := setGlobal "NF" (.ofNat n)

def setRecord (v : Value) : Work Unit := do
  let s ← textOf v
  let fields := (← fieldsOf s).map fun f => Value.ofInput (String.ofList f)
  modify fun m => { m with record := v, fields := fields.toArray }
  setFieldCount fields.length

def joinRecord : Work Unit := do
  let texts ← (← get).fields.toList.mapM textOf
  let s := (← globalText "OFS").intercalate texts
  modify fun m => { m with record := Value.ofInput s }

def field (n : Nat) : Work Value := do
  let m ← get
  pure (if n == 0 then m.record else m.fields.getD (n - 1) .unset)

def resize (n : Nat) : Work Unit := do
  modify fun m =>
    let old := m.fields.size
    { m with fields := if n ≤ old then m.fields.take n else m.fields ++ Array.replicate (n - old) .unset }
  setFieldCount n

def setField (n : Nat) (v : Value) : Work Unit := do
  if n == 0 then setRecord v
  else do
    if (← get).fields.size < n then resize n
    modify fun m => { m with fields := m.fields.setIfInBounds (n - 1) v }
    joinRecord

def valueOf (name : String) : Work Value := do
  match ← cell? name with
  | some (.value v) => pure v
  | some (.array _) => wrong s!"type error in {name}"
  | _ => pure .unset

def setVariable (name : String) (v : Value) : Work Unit := do
  match ← cell? name with
  | some (.array _) => wrong s!"type error in {name}"
  | _ => do
    putCell name (.value v)
    if name == "NF" then
      resize v.toNumber.toUInt64.toNat
      joinRecord

/-- Cuts a record off a text: the record and what is left; none at the end. -/
def cutRecord (s : List Char) : Work (Option (List Char × List Char)) := do
  if s.isEmpty then pure none
  else match (← globalText "RS").toList with
  | [] => do
    let s := s.dropWhile (· == '\n')
    if s.isEmpty then pure none else pure (some (paragraph [] s))
  | [c] =>
    let r := s.takeWhile (· != c)
    pure (some (r, s.drop (r.length + 1)))
  | separator => do
    let r ← regular (String.ofList separator)
    match partsOf.found r (s.length + 1) 0 none s with
    | some f => pure (some (s.take f.start, s.drop (f.start + f.length)))
    | none =>
      let s := if s.getLast? == some '\n' && separator == ['\n'] then s.dropLast else s
      pure (some (s, []))
where
  /-- The rows up to an empty one. -/
  paragraph (taken : List Char) : List Char → List Char × List Char
    | '\n' :: '\n' :: s => (taken.reverse, s.dropWhile (· == '\n'))
    | ['\n'] => (taken.reverse, [])
    | c :: s => paragraph (c :: taken) s
    | [] => (taken.reverse, [])

def fileText (path : String) : Work (Except Errno (List Char)) := do
  let m ← get
  if path == "-" || path == "/dev/stdin" then
    set { m with shell := m.shell.leaveInput 0 [] }
    pure (.ok (m.shell.input 0))
  else if path == "/dev/null" then pure (.ok [])
  else match m.shell.disk.read (Octet.decode path) with
  | .ok c => pure (.ok (Octet.ofBytes c.bytes))
  | .error e => pure (.error e)

def channel? (name : String) : Work (Option Channel) := do pure ((← get).channels.lookup name)

/-- Opens a channel, or puts it in front. -/
def putChannel (name : String) (c : Channel) : Work Unit :=
  modify fun m => { m with channels := (name, c) :: m.channels.filter (·.1 != name) }

/-- Prints to a file, which is emptied when it is opened unless it is to be added to. -/
def writeFile (path text : String) (appends : Bool) : Work Unit := do
  if path == "/dev/stdout" || path == "-" then modify fun m => { m with held := m.held ++ text }
  else if path == "/dev/stderr" then act (Act.printError text)
  else if path == "/dev/null" then pure ()
  else do
    let m ← get
    let name := Octet.decode path
    let isOpen := (m.channels.lookup path).isSome
    let old := if (isOpen || appends) && m.shell.disk.isFile name then m.shell.disk.read name
      else .ok (.text "")
    let new (c : Content) : Content :=
      Content.ofBytes (c.bytes ++ Octet.toBytes text.toList)
    match old.bind fun c => m.shell.disk.write name (new c) with
    | .ok disk => do
      set { m with shell := { m.shell with disk } }
      putChannel path .writes
    | .error _ => wrong s!"cannot open \"{path}\" for output"

end Work

end FragmentMerge.Script.Awk

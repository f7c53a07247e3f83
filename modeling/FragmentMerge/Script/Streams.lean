import FragmentMerge.Script.Expand

/-! Redirections. -/

namespace FragmentMerge.Script

namespace Act

def openReason (e : Errno) (missing : String) : String :=
  match e with
  | .notFound => missing
  | .notDirectory => missing
  | e => e.reason

def openRead (stream : Nat) (path : String) : Act Unit := do
  let s ← get
  if path == "/dev/null" then set (s.opening stream .nowhere)
  else match s.disk.locate (Octet.decode path) with
  | .ok (.file way _) => set (s.opening stream (.file way 0 false))
  | .ok (.directory _) => set (s.opening stream .directory)
  | .ok (.vacant _ _) => fault s!"cannot open {path}: No such file"
  | .error e =>
    let reason := openReason e "No such file"
    fault s!"cannot open {path}: {reason}"

def duplicate (stream source : Nat) : Act Unit := do
  let s ← get
  match s.numbers.lookup source with
  | some i => set { s with numbers := (stream, i) :: s.numbers.filter (·.1 != stream) }
  | none => fault s!"{source}: Bad file descriptor"

def openWrite (stream : Nat) (opening : Opening) (path : String) : Act Unit := do
  let s ← get
  let name := Octet.decode path
  let isKept := opening == Opening.append || opening == Opening.readWrite
  if path == "/dev/null" then set (s.opening stream .nowhere)
  else if path == "/dev/stdout" then duplicate stream 1
  else if path == "/dev/stderr" then duplicate stream 2
  else if opening == Opening.write && s.has 'C' && s.disk.isFile name then
    fault s!"cannot create {path}: File exists"
  else
    let text := if isKept && s.disk.isFile name then s.disk.read name else .ok (.text "")
    match text.bind (s.disk.write name ·) with
    | .ok disk =>
      match disk.locate name with
      | .ok (.file way _) =>
        set ({ s with disk }.opening stream (.file way 0 (opening == Opening.append)))
      | _ => pure ()
    | .error e =>
      let reason := openReason e "Directory nonexistent"
      fault s!"cannot create {path}: {reason}"

def redirect (output : Command → Act String) : Redirect → Act Unit
  | .file stream opening target => do
    let path ← single output false target
    match opening with
    | .read => openRead stream path
    | opening => openWrite stream opening path
  | .copy stream source => do
    let w ← single output false source
    match w.toList with
    | ['-'] => modify fun s => s.closing stream
    | [d] => if d.isDigit then duplicate stream (d.toNat - 48) else fault s!"Bad fd number: {w}"
    | _ => fault s!"Bad fd number: {w}"
  | .here stream number => do
    let text := ((← get).texts.lookup number).getD []
    let as ← atoms output false false text
    modify fun s => s.opening stream (.source (markedText as))

def redirectAll (output : Command → Act String) : List Redirect → Act Unit
  | [] => pure ()
  | r :: rs => do
    redirect output r
    redirectAll output rs

end Act

end FragmentMerge.Script

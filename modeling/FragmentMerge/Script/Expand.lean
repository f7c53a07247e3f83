import FragmentMerge.Script.Arithmetic
import FragmentMerge.Script.Shell
import FragmentMerge.Script.Wildcard

/-! Expands words. A word gives a row of atoms first; it is then cut into fields where what was not
quoted holds separators, and fields with wildcards give the names that match. -/

namespace FragmentMerge.Script

/-- A part of a word that is being expanded. A character may be quoted, and may be a separator. -/
inductive Atom where
  | char (c : Char) (quoted cuts : Bool)
  /-- A quotation: there is a field even if it has no characters. -/
  | quotes
  /-- No parameters where all of them are asked for: the quotation around it makes no field. -/
  | vanished
  /-- The gap between two parameters. -/
  | gap
  deriving DecidableEq, Repr

def atomsOf (s : List Char) (quoted cuts : Bool) : List Atom := s.map fun c => .char c quoted cuts

def Atom.char? : Atom → Option Char
  | char c _ _ => some c
  | _ => none

def Atom.marked? : Atom → Option Marked
  | char c quoted _ => some (c, quoted)
  | _ => none

namespace Shell

def separators (s : Shell) : List Char := ((s.value? "IFS").getD " \t\n").toList

/-- What stands between parameters that are put together. -/
def joint (s : Shell) : String :=
  match s.value? "IFS" with
  | none => " "
  | some ifs => String.ofList (ifs.toList.take 1)

/-- The value of a parameter other than all parameters together. -/
def parameter? (s : Shell) (name : String) : Option String :=
  match name with
  | "#" => some (toString s.args.length)
  | "?" => some (toString s.status)
  | "$" => some (toString processNumber)
  | "!" => s.jobs.head?.map fun j => toString j.1
  | "-" => some (String.ofList s.options)
  | name =>
    match name.toNat? with
    | some 0 => some s.name
    | some (n + 1) => s.args[n]?
    | none => s.value? name

end Shell

def isAll (name : String) : Bool := name == "@" || name == "*"

def allAtoms (s : Shell) (name : String) (quoted cuts : Bool) : List Atom :=
  if quoted && (name == "*" || !cuts) then
    .quotes :: atomsOf (s.joint.intercalate s.args).toList true false
  else if !cuts then atomsOf (s.joint.intercalate s.args).toList false false
  else if s.args.isEmpty then (if quoted then [.vanished] else [])
  else
    let rows := s.args.map fun a =>
      if quoted then .quotes :: atomsOf a.toList true false else atomsOf a.toList false true
    List.intercalate [.gap] rows

/-- Cuts the shortest or the longest part that matches from the start of a text. -/
def cutStart (longest : Bool) (ws : List Wildcard) (s : List Char) : List Char :=
  let sizes := List.range (s.length + 1)
  let sizes := if longest then sizes.reverse else sizes
  match sizes.find? fun n => fits ws (s.take n) with
  | some n => s.drop n
  | none => s

def cutEnd (longest : Bool) (ws : List Wildcard) (s : List Char) : List Char :=
  let sizes := List.range (s.length + 1)
  let sizes := if longest then sizes else sizes.reverse
  match sizes.find? fun n => fits ws (s.drop n) with
  | some n => s.take n
  | none => s

def homeOf? (s : Shell) (user : List Char) : Option (List Char) :=
  if user.isEmpty then (s.value? "HOME").map String.toList
  else if user = "root".toList then some "/root".toList
  else none

/-- The directory that a tilde at the start of a text stands for, and what follows it. -/
def tilde (s : Shell) (isLast : Bool) (text : List Char) : List Char × List Char :=
  match text with
  | '~' :: rest =>
    let user := rest.takeWhile (· != '/')
    let after := rest.drop user.length
    match (if after.isEmpty && !isLast then none else homeOf? s user) with
    | some home => (home, after)
    | none => ([], text)
  | text => ([], text)

def tildePieces (s : Shell) (isLast : Bool) (text : List Char) : List Piece :=
  let (home, rest) := tilde s isLast text
  [.text home true, .text rest false]

/-- A word with its tildes put in; in an assignment one may follow a colon too. -/
def withTilde (s : Shell) (assigns : Bool) : Word → Word
  | .text t false :: ps =>
    if assigns then
      let parts := t.splitOn ':'
      let parts := parts.mapIdx fun i part => tildePieces s (i + 1 < parts.length || ps.isEmpty) part
      List.intercalate [.text [':'] false] parts ++ ps
    else tildePieces s ps.isEmpty t ++ ps
  | w => w

def trimmed (s : String) : List Char :=
  ((s.toList.filter (· != '\x00')).reverse.dropWhile (· == '\n')).reverse

namespace Act

def reckoned (s : List Char) : Act (List Char) := do
  let shell ← get
  match reckon shell.value? s with
  | .ok (n, sets) =>
    for (name, value) in sets do
      assign name (toString value)
    pure (toString n).toList
  | .error (.expression message) =>
    fault s!"arithmetic expression: {message}: \"{String.ofList s}\""
  | .error (.illegal text) => fault s!"Illegal number: {text}"

/-- The value of a parameter and whether it counts as one. -/
def valueOf (name : String) : Act (Option String) := do
  let s ← get
  if isAll name then
    pure (if s.args.isEmpty then none else some (s.joint.intercalate s.args))
  else pure (s.parameter? name)

def valueAtoms (name : String) (quoted cuts : Bool) : Act (List Atom) := do
  let s ← get
  if isAll name then pure (allAtoms s name quoted cuts)
  else pure (atomsOf ((s.parameter? name).getD "").toList quoted (cuts && !quoted))

def checkSet (name : String) : Act Unit := do
  if (← get).has 'u' && !isAll name && (← valueOf name).isNone then
    fault s!"{name}: parameter not set"

def markedText (as : List Atom) : List Char := as.filterMap Atom.char?

mutual

/-- The atoms of pieces. In an operand even what is written out may be cut. -/
def atoms (output : Command → Act String) (cuts operand : Bool) : List Piece → Act (List Atom)
  | [] => pure []
  | p :: ps => do
    let as ← pieceAtoms output cuts operand p
    pure (as ++ (← atoms output cuts operand ps))

/-- The atoms of what stands in for a parameter. -/
def operandAtoms (output : Command → Act String) (cuts quoted : Bool) : List Piece → Act (List Atom)
  | [] => pure []
  | p :: ps => do
    let as ← match p with
      | .text t false => do
        let s ← get
        let (home, rest) := if quoted then ([], t) else tilde s ps.isEmpty t
        pure (atomsOf home true false ++ atomsOf rest false cuts)
      | p => pieceAtoms output cuts true p
    pure (as ++ (← atoms output cuts true ps))

def pieceAtoms (output : Command → Act String) (cuts operand : Bool) : Piece → Act (List Atom)
  | .text s quoted => pure (atomsOf s quoted (operand && cuts && !quoted))
  | .quotes => pure [.quotes]
  | .output body quoted => do
    pure (atomsOf (trimmed (← output body)) quoted (cuts && !quoted))
  | .arithmetic body quoted => do
    let as ← atoms output false false body
    pure (atomsOf (← reckoned (markedText as)) quoted (cuts && !quoted))
  | .parameter name use word quoted => do
    match use with
    | .value => do
      checkSet name
      valueAtoms name quoted cuts
    | .length => do
      checkSet name
      let value := (← valueOf name).getD ""
      pure (atomsOf (toString value.length).toList quoted (cuts && !quoted))
    | .bad => fault "Bad substitution"
    | .orElse colon => do
      let value ← valueOf name
      if value.isNone || (colon && value == some "") then
        operandAtoms output cuts quoted word
      else valueAtoms name quoted cuts
    | .ifSet colon => do
      let value ← valueOf name
      if value.isNone || (colon && value == some "") then pure []
      else operandAtoms output cuts quoted word
    | .orAssign colon => do
      let value ← valueOf name
      if value.isNone || (colon && value == some "") then
        if !isName name.toList then fault s!"{name}: bad variable name"
        let as ← atoms output false false word
        assign name (String.ofList (markedText as))
      valueAtoms name quoted cuts
    | .orFail colon => do
      let value ← valueOf name
      if value.isNone || (colon && value == some "") then
        let as ← atoms output false false word
        let message := if word.isEmpty then
            "parameter not set" ++ if colon then " or null" else ""
          else String.ofList (markedText as)
        fault s!"{name}: {message}"
      valueAtoms name quoted cuts
    | .cutStart longest => do
      checkSet name
      let as ← atoms output false false word
      let value := ((← valueOf name).getD "").toList
      let ws := wildcards (as.filterMap Atom.marked?)
      pure (atomsOf (Script.cutStart longest ws value) quoted (cuts && !quoted))
    | .cutEnd longest => do
      checkSet name
      let as ← atoms output false false word
      let value := ((← valueOf name).getD "").toList
      let ws := wildcards (as.filterMap Atom.marked?)
      pure (atomsOf (Script.cutEnd longest ws value) quoted (cuts && !quoted))

end

end Act

/-- A field as far as it goes: its characters, last first, how many quotations it has and whether one
of them has vanished; and the fields before it, last first. `blank` says that the last separator was
a blank one. -/
structure Cutting where
  chars : List Marked
  quotes : Nat
  vanished : Bool
  blank : Bool
  done : List (List Marked)

namespace Cutting

def start : Cutting := ⟨[], 0, false, false, []⟩

def begun (c : Cutting) : Bool :=
  !c.chars.isEmpty || (if c.vanished then 1 else 0) < c.quotes

def finish (c : Cutting) : Cutting := ⟨[], 0, false, false, c.chars.reverse :: c.done⟩

def close (c : Cutting) : Cutting :=
  if c.begun then c.finish else { c with quotes := 0, vanished := false }

def add (separators : List Char) (c : Cutting) : Atom → Cutting
  | .quotes => { c with quotes := c.quotes + 1, blank := false }
  | .vanished => { c with vanished := true }
  | .gap => c.close
  | .char a quoted cuts =>
    if cuts && separators.contains a then
      if a == ' ' || a == '\t' || a == '\n' then
        if c.begun then { c.finish with blank := true } else c
      else if !c.begun && c.blank then { c with blank := false }
      else c.finish
    else { c with chars := (a, quoted) :: c.chars, blank := false }

end Cutting

def fieldsOf (separators : List Char) (as : List Atom) : List (List Marked) :=
  (as.foldl (Cutting.add separators) .start).close.done.reverse

def isMagic (s : List Marked) : Bool :=
  s.any fun (c, quoted) => !quoted && (c == '*' || c == '?' || c == '[')

/-- The names in a directory that match; hidden ones only if the pattern starts with a dot. -/
def namesLike (d : Disk) (directory : String) (pattern : List Marked) : List String :=
  let names :=
    match d.list (if directory.isEmpty then "." else Octet.decode directory) with
    | .ok names => names.map Octet.encode
    | .error _ => []
  let hidden := (pattern.head?.map (·.1)) == some '.'
  let ws := wildcards pattern
  ((if hidden then [".", ".."] else []) ++ names).filter fun name =>
    (hidden || name.toList.head? != some '.') && fits ws name.toList

def onDisk (d : Disk) (p : String) : Bool := d.isFile (Octet.decode p) || d.isDirectory (Octet.decode p)

def pathsLike (d : Disk) (before : String) : List (List Marked) → List String
  | [] => []
  | [last] =>
    if isMagic last then (namesLike d before last).map (before ++ ·)
    else
      let path := before ++ String.ofList (last.map (·.1))
      if onDisk d path then [path] else []
  | part :: parts =>
    let names := if isMagic part then namesLike d before part else [String.ofList (part.map (·.1))]
    names.flatMap fun name => pathsLike d (before ++ name ++ "/") parts

def pathParts (s : List Marked) : List (List Marked) := s.splitOnP fun m => m.1 == '/'

/-- The words that a field gives: the paths that match it, or itself. -/
def globbed (s : Shell) (field : List Marked) : List String :=
  let itself := String.ofList (field.map (·.1))
  if s.has 'f' || !isMagic field then [itself]
  else match (pathsLike s.disk "" (pathParts field)).mergeSort with
    | [] => [itself]
    | paths => paths

namespace Act

def fields (output : Command → Act String) (w : Word) : Act (List String) := do
  let as ← atoms output true false (withTilde (← get) false w)
  let s ← get
  pure ((fieldsOf s.separators as).flatMap (globbed s))

def allFields (output : Command → Act String) : List Word → Act (List String)
  | [] => pure []
  | w :: ws => do
    let fs ← fields output w
    pure (fs ++ (← allFields output ws))

def single (output : Command → Act String) (assigns : Bool) (w : Word) : Act String := do
  let as ← atoms output false false (withTilde (← get) assigns w)
  pure (String.ofList (markedText as))

def pattern (output : Command → Act String) (w : Word) : Act (List Wildcard) := do
  let as ← atoms output false false (withTilde (← get) false w)
  pure (wildcards (as.filterMap Atom.marked?))

end Act

end FragmentMerge.Script

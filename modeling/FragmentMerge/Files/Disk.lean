import FragmentMerge.Files.Path
import FragmentMerge.Text.Utf8

/-! A directory tree as a value. An entry is known by the names on the way to it from the root, which
is a directory itself; relative paths start at the current directory. -/

namespace FragmentMerge

/-- What a file holds: a text, or bytes that are none. -/
inductive Content where
  | text (s : String)
  | binary (bytes : List UInt8)
  deriving DecidableEq, Repr

def Content.ofBytes (bs : List UInt8) : Content :=
  match Utf8.decode bs with
  | .ok s => .text s
  | .error _ => .binary bs

def Content.bytes : Content → List UInt8
  | .text s => Utf8.bytes s
  | .binary bs => bs

inductive Entry where
  | file (c : Content)
  | directory
  deriving DecidableEq, Repr

inductive Errno where
  | notFound
  | alreadyExists
  | notDirectory
  | isDirectory
  | nameTooLong
  | badName
  deriving DecidableEq, Repr

def Errno.reason : Errno → String
  | .notFound => "No such file or directory"
  | .alreadyExists => "File exists"
  | .notDirectory => "Not a directory"
  | .isDirectory => "Is a directory"
  | .nameTooLong => "File name too long"
  | .badName => "file name contained an unexpected NUL byte"

def Errno.code : Errno → Option Nat
  | .notFound => some 2
  | .alreadyExists => some 17
  | .notDirectory => some 20
  | .isDirectory => some 21
  | .nameTooLong => some 36
  | .badName => none

def Errno.message (e : Errno) : String :=
  match e.code with
  | some n => s!"{e.reason} (os error {n})"
  | none => e.reason

structure Disk where
  here : List String
  entries : List (List String × Entry)
  deriving Repr

namespace Disk

def hereText (d : Disk) : String := "/" ++ "/".intercalate d.here

/-- Where a path leads. A vacant spot lies in a directory that exists; `slash` says that the path
ends in one. -/
inductive Spot where
  | directory (way : List String)
  | file (way : List String) (c : Content)
  | vacant (way : List String) (slash : Bool)
  deriving DecidableEq, Repr

def entry? (d : Disk) (way : List String) : Option Entry :=
  if way.isEmpty then some .directory else d.entries.lookup way

def putIn (way : List String) (e : Entry) :
    List (List String × Entry) → List (List String × Entry)
  | [] => [(way, e)]
  | (k, e') :: es => if k = way then (way, e) :: es else (k, e') :: putIn way e es

def put (d : Disk) (way : List String) (e : Entry) : Disk :=
  { d with entries := putIn way e d.entries }

def prune (d : Disk) (way : List String) : Disk :=
  { d with entries := d.entries.filter fun (k, _) => !way.isPrefixOf k }

def spotAt (d : Disk) (way : List String) : Spot :=
  match d.entry? way with
  | some .directory => .directory way
  | some (.file c) => .file way c
  | none => .vacant way false

def nameLimit : Nat := 255

def pathLimit : Nat := 4095

def step (d : Disk) (spot : Spot) (s : String) : Except Errno Spot :=
  match spot with
  | .directory way =>
    if Path.isIdle s then .ok (.directory way)
    else if nameLimit < s.utf8ByteSize then .error .nameTooLong
    else if s = ".." then .ok (.directory way.dropLast)
    else .ok (d.spotAt (way ++ [s]))
  | .file _ _ => .error .notDirectory
  | .vacant way _ => if s.isEmpty then .ok (.vacant way true) else .error .notFound

def locate (d : Disk) (p : String) : Except Errno Spot :=
  if p.isEmpty then .error .notFound
  else if p.toList.contains '\x00' then .error .badName
  else if pathLimit < p.utf8ByteSize then .error .nameTooLong
  else
    let start := if Path.isAbsolute p then [] else d.here
    (Path.segments p).foldlM d.step (.directory start)

/-- The disk with another current directory, if the path leads to one. -/
def enter (d : Disk) (p : String) : Disk :=
  match d.locate p with
  | .ok (.directory way) => { d with here := way }
  | _ => d

def isFile (d : Disk) (p : String) : Bool :=
  match d.locate p with
  | .ok (.file _ _) => true
  | _ => false

def isDirectory (d : Disk) (p : String) : Bool :=
  match d.locate p with
  | .ok (.directory _) => true
  | _ => false

def read (d : Disk) (p : String) : Except Errno Content :=
  match d.locate p with
  | .ok (.file _ c) => .ok c
  | .ok (.directory _) => .error .isDirectory
  | .ok (.vacant _ _) => .error .notFound
  | .error e => .error e

def write (d : Disk) (p : String) (c : Content) : Except Errno Disk :=
  match d.locate p with
  | .ok (.file way _) => .ok (d.put way (.file c))
  | .ok (.vacant way false) => .ok (d.put way (.file c))
  | .ok (.vacant _ true) => .error .isDirectory
  | .ok (.directory _) => .error .isDirectory
  | .error e => .error e

def makeDirectory (d : Disk) (p : String) : Except Errno Disk :=
  match d.locate p with
  | .ok (.vacant way _) => .ok (d.put way .directory)
  | .ok _ => .error .alreadyExists
  | .error e => .error e

/-- Makes a directory and those above it that are missing. -/
def makeDirectoriesWithin : Nat → Disk → String → Except Errno Disk
  | 0, _, _ => .error .notFound
  | n + 1, d, p =>
    if p.isEmpty then .ok d
    else match d.makeDirectory p with
    | .ok d => .ok d
    | .error .notFound =>
      match Path.parent? p with
      | none => .error .notFound
      | some up =>
        match makeDirectoriesWithin n d up with
        | .error e => .error e
        | .ok d =>
          match d.makeDirectory p with
          | .ok d => .ok d
          | .error e => if d.isDirectory p then .ok d else .error e
    | .error e => if d.isDirectory p then .ok d else .error e

def makeDirectories (d : Disk) (p : String) : Except Errno Disk :=
  makeDirectoriesWithin (p.length + 1) d p

def namesIn (d : Disk) (way : List String) : List String :=
  (d.entries.filterMap fun (k, _) =>
    match k.getLast? with
    | some name => if k.dropLast = way then some name else none
    | none => none).mergeSort

def list (d : Disk) (p : String) : Except Errno (List String) :=
  match d.locate p with
  | .ok (.directory way) => .ok (d.namesIn way)
  | .ok (.file _ _) => .error .notDirectory
  | .ok (.vacant _ _) => .error .notFound
  | .error e => .error e

def removeFile (d : Disk) (p : String) : Except Errno Disk :=
  match d.locate p with
  | .ok (.file way _) => .ok (d.prune way)
  | .ok (.directory _) => .error .isDirectory
  | .ok (.vacant _ _) => .error .notFound
  | .error e => .error e

def removeTree (d : Disk) (p : String) : Except Errno Disk :=
  match d.locate p with
  | .ok (.directory way) => .ok (d.prune way)
  | .ok (.file _ _) => .error .notDirectory
  | .ok (.vacant _ _) => .error .notFound
  | .error e => .error e

/-- The files below a directory, as the names on the way to each. -/
def filesBelow (d : Disk) (p : String) : List (List String) :=
  match d.locate p with
  | .ok (.directory way) =>
    d.entries.filterMap fun (k, e) =>
      match e with
      | .file _ => if way.isPrefixOf k then some (k.drop way.length) else none
      | .directory => none
  | _ => []

def readText (d : Disk) (p : String) : Except String String :=
  match d.read p with
  | .ok (.text s) => .ok s
  | .ok (.binary _) => .error "stream did not contain valid UTF-8"
  | .error e => .error e.message

def home (names : List String) : Disk :=
  ⟨names, (List.range names.length).map fun i => (names.take (i + 1), .directory)⟩

end Disk

end FragmentMerge

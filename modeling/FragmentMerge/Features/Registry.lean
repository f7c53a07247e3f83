import FragmentMerge.Data.Digest
import FragmentMerge.Data.Json
import FragmentMerge.Data.Table
import FragmentMerge.Files.Disk

/-! Feature packages: pieces of code by package and name, and the directory tree that holds them. Each
package is a directory with a file for each feature, an index and a manifest. -/

namespace FragmentMerge

inductive RegistryError where
  | io (path detail : String)
  | reservedName (package feature : String)
  | invalidName (name : String)
  deriving DecidableEq, Repr

def RegistryError.message : RegistryError → String
  | .io path detail => s!"IO error on {path}: {detail}"
  | .reservedName package feature =>
    s!"'{feature}' is reserved and cannot be registered in package '{package}'"
  | .invalidName name => s!"invalid package or feature name '{name}'"

structure Registry where
  root : String
  packages : Table (Table String)

structure MaterializeSummary where
  packages : Nat
  written : Nat
  unchanged : Nat
  removed : Nat
  deriving DecidableEq, Repr

def MaterializeSummary.changed (s : MaterializeSummary) : Bool := s.written != 0 || s.removed != 0

namespace Registry

def new (root : String) : Registry := ⟨root, .empty⟩

/-- The names of the files that a package has besides its features. -/
def reserved : List String := ["index", "manifest"]

def isNameStart (c : Char) : Bool := c.isAlpha || c == '_'

def isName (s : String) : Bool :=
  match s.toList with
  | [] => false
  | c :: cs => isNameStart c && cs.all fun c => isNameStart c || c.isDigit || c == '-'

/-- Registers a feature, or replaces its code. -/
def register (r : Registry) (package feature code : String) : Except RegistryError Registry :=
  if !isName package then .error (.invalidName package)
  else if !isName feature then .error (.invalidName feature)
  else if reserved.contains feature then .error (.reservedName package feature)
  else
    let features := (r.packages.find? package).getD .empty
    .ok { r with packages := r.packages.insert package (features.insert feature code) }

def features (r : Registry) (package : String) : List String :=
  ((r.packages.find? package).map Table.keys).getD []

def filled (r : Registry) : List (String × Table String) :=
  r.packages.entries.filter fun p => !p.2.isEmpty

def packageNames (r : Registry) : List String := r.filled.map (·.1)

def packageDir (r : Registry) (package : String) : String := Path.join r.root package

abbrev Task := EStateM RegistryError Disk

/-- Changes the disk; a refusal is reported with the path. -/
def change (path : String) (f : Disk → Except Errno Disk) : Task Unit := fun d =>
  match f d with
  | .ok d => .ok () d
  | .error e => .error (.io path e.message) d

def listNames (path : String) : Task (List String) := fun d =>
  match d.list path with
  | .ok names => .ok names d
  | .error e => .error (.io path e.message) d

def writeText (path text : String) : Task Unit := change path (·.write path (.text text))

def removePackages (root : String) (keep : List String) : List String → Task Nat
  | [] => pure 0
  | name :: names => do
    let path := Path.join root name
    let d ← get
    if d.isDirectory path && !keep.contains name then
      change path (·.removeTree path)
      let n ← removePackages root keep names
      pure (n + 1)
    else removePackages root keep names

def isStale (features : Table String) (name : String) : Bool :=
  match Path.splitExtension name with
  | (stem, some "js") => !reserved.contains stem && (features.find? stem).isNone
  | _ => false

def removeStale (dir : String) (features : Table String) : List String → Task Nat
  | [] => pure 0
  | name :: names =>
    if isStale features name then do
      let path := Path.join dir name
      change path (·.removeFile path)
      let n ← removeStale dir features names
      pure (n + 1)
    else removeStale dir features names

def featureFile (dir feature : String) : String := Path.join dir (feature ++ ".js")

def codeHash (code : String) : String := Digest.sha256 (Utf8.bytes code)

/-- Whether a file holds the code already, judged by digests. -/
def isCurrent (d : Disk) (path code : String) : Bool :=
  match d.read path with
  | .ok c => Digest.sha256 c.bytes == codeHash code
  | .error _ => false

def writeFeatures (dir : String) : List (String × String) → Task (Nat × Nat)
  | [] => pure (0, 0)
  | (feature, code) :: rest => do
    let path := featureFile dir feature
    let d ← get
    if isCurrent d path code then
      let (w, u) ← writeFeatures dir rest
      pure (w, u + 1)
    else
      writeText path code
      let (w, u) ← writeFeatures dir rest
      pure (w + 1, u)

def manifest (package : String) (features : Table String) : Tree :=
  .table [
    ("package", .text package),
    ("features", .texts features.keys),
    ("hashes", .table (features.entries.map fun (k, code) => (k, .text (codeHash code))))]

def index (features : Table String) : String :=
  "'use strict';\n\nmodule.exports = \x7b\n" ++
    String.join (features.keys.map fun f => "  '" ++ f ++ "': require('./" ++ f ++ "'),\n") ++
    "\x7d;\n"

def writePackage (r : Registry) (package : String) (features : Table String)
    (s : MaterializeSummary) : Task MaterializeSummary := do
  let dir := r.packageDir package
  change dir (·.makeDirectories dir)
  let names ← listNames dir
  let removed ← removeStale dir features names
  let (written, unchanged) ← writeFeatures dir features.entries
  writeText (Path.join dir "manifest.json") (Json.pretty (manifest package features))
  writeText (Path.join dir "index.js") (index features)
  pure ⟨s.packages + 1, s.written + written, s.unchanged + unchanged, s.removed + removed⟩

def writePackages (r : Registry) :
    List (String × Table String) → MaterializeSummary → Task MaterializeSummary
  | [], s => pure s
  | (package, features) :: rest, s => do
    let s ← r.writePackage package features s
    r.writePackages rest s

def removeUnregistered (r : Registry) : Task Nat := do
  let d ← get
  if d.isDirectory r.root then
    let names ← listNames r.root
    removePackages r.root r.packageNames names
  else pure 0

/-- Brings the directory tree in line with what is registered. -/
def materialize (r : Registry) : Task MaterializeSummary := do
  let removed ← r.removeUnregistered
  r.writePackages r.filled ⟨0, 0, 0, removed⟩

end Registry

end FragmentMerge

import FragmentMerge.Catalog.FullText
import FragmentMerge.Files.Disk

/-! The fragments of a project: the base, then the configured files and directories, then fragments
that were made elsewhere. A directory stands for the fragment files below it, sorted by name. -/

namespace FragmentMerge

inductive Origin where
  | file (id path : String)
  | inline (f : Fragment)
  deriving DecidableEq, Repr

namespace Origin

def id : Origin → String
  | file id _ => id
  | inline f => f.id

def source (d : Disk) : Origin → Source
  | file id path => ⟨id, (d.readText path).mapError (.io path)⟩
  | inline f => f.source

end Origin

namespace Config

def fragmentExtension : String := "prisma"

def slashes (s : String) : String :=
  String.ofList (s.toList.map fun c => if c = '\\' then '/' else c)

/-- The fragment file at the end of a way of names below a directory. -/
def fileIn? (c : Config) (dir : String) (way : List String) : Option Origin :=
  match way.getLast? with
  | none => none
  | some name =>
    if (Path.splitExtension name).2 = some fragmentExtension then
      let path := way.foldl Path.join dir
      some (.file (slashes (Path.below c.root path)) path)
    else none

def filesIn (c : Config) (d : Disk) (dir : String) : List Origin :=
  ((d.filesBelow dir).filterMap (c.fileIn? dir)).mergeSort fun a b => a.id ≤ b.id

def pushNew (os : List Origin) (o : Origin) : List Origin :=
  if os.any (·.id == o.id) then os else os ++ [o]

def originsOf (c : Config) (d : Disk) (p : String) : List Origin :=
  let path := c.path p
  if d.isDirectory path then c.filesIn d path else [.file p path]

def sources (c : Config) (d : Disk) (made : List Fragment) : Except LoadError (List Origin) :=
  match c.base.filter (!·.isEmpty) with
  | none => .error .missingBase
  | some base =>
    let path := c.path base
    if !d.isFile path then .error (.io path "base document not found")
    else .ok (((c.fragments.flatMap (c.originsOf d)).foldl pushNew [.file base path]) ++
      made.map .inline)

def load [PatternEngine] (c : Config) (d : Disk) (made : List Fragment) : Except LoadError Catalog := do
  c.validate.mapError LoadError.config
  let origins ← c.sources d made
  let catalog ← Catalog.ofSources c.isExcluded (origins.map (Origin.source d))
  catalog.withFullText c.fullText c.isExcluded

end Config

end FragmentMerge

import FragmentMerge.Catalog.Basic
import FragmentMerge.Schema.Block
import FragmentMerge.Config.Basic

/-! Loading: fragments become a catalog. The first fragment is the base; the document takes its
generator and its datasource, and of two items with one key the first counts. -/

namespace FragmentMerge

inductive LoadError where
  | missingBase
  | missingGenerator (base : String)
  | missingDatasource (base : String)
  | io (path detail : String)
  | block (file : String) (error : BlockError)
  | unknownModel (key : String)
  | config (error : ConfigError)
  deriving DecidableEq, Repr

namespace LoadError

def message : LoadError → String
  | missingBase => "no base document configured"
  | missingGenerator base => s!"base document '{base}' has no generator block"
  | missingDatasource base => s!"base document '{base}' has no datasource block"
  | io path detail => s!"failed to read {path}: {detail}"
  | block file error => s!"{file}: {error.message}"
  | unknownModel key => s!"'{key}' is configured but no such model was loaded"
  | config error => error.message

def causes : LoadError → List String
  | block file error => [(block file error).message, error.message]
  | config error => error.causes
  | e => [e.message]

end LoadError

/-- A fragment of the document: its name in keys, and its text. -/
structure Fragment where
  id : String
  text : String
  deriving DecidableEq, Repr

/-- A fragment that may turn out to be unreadable. -/
structure Source where
  id : String
  text : Except LoadError String

def Fragment.source (f : Fragment) : Source := ⟨f.id, .ok f.text⟩

namespace Catalog

def empty (base : String) : Catalog := ⟨base, "", "", [], [], []⟩

def addFile (c : Catalog) (file : String) : Catalog :=
  if c.files.contains file then c else { c with files := c.files ++ [file] }

def addModel (c : Catalog) (k : ItemKey) (b : Block) : Catalog :=
  { c with models := c.models ++ [⟨k, b.bodyLines.map Column.parse, b.line⟩] }

def addEnum (c : Catalog) (k : ItemKey) (b : Block) : Catalog :=
  { c with enums := c.enums ++ [⟨k, b.name, b.bodyLines, b.line⟩] }

/-- Adds a block of a fragment. Generators and datasources count in the base only, and the first of
each; blocks of any other keyword do not count. -/
def addBlock (excluded : ItemKey → Bool) (file : String) (isBase : Bool) (c : Catalog) (b : Block) :
    Catalog :=
  let k : ItemKey := ⟨file, b.name⟩
  if b.keyword = "generator" then
    if isBase && c.generator.isEmpty then { c with generator := b.text } else c
  else if b.keyword = "datasource" then
    if isBase && c.datasource.isEmpty then { c with datasource := b.text } else c
  else if b.keyword = "model" then
    if excluded k || c.contains k then c else c.addModel k b
  else if b.keyword = "enum" then
    if excluded k || c.contains k then c else c.addEnum k b
  else c

def addFragment (excluded : ItemKey → Bool) (isBase : Bool) (c : Catalog) (f : Fragment) :
    Except LoadError Catalog :=
  match Block.extract f.text with
  | .error e => .error (.block f.id e)
  | .ok blocks => .ok (blocks.foldl (addBlock excluded f.id isBase) (c.addFile f.id))

def addSource (excluded : ItemKey → Bool) (isBase : Bool) (c : Catalog) (s : Source) :
    Except LoadError Catalog :=
  s.text.bind fun text => c.addFragment excluded isBase ⟨s.id, text⟩

def checkHeads (c : Catalog) : Except LoadError Catalog :=
  if c.generator.isEmpty then .error (.missingGenerator c.base)
  else if c.datasource.isEmpty then .error (.missingDatasource c.base)
  else .ok c

def ofSources (excluded : ItemKey → Bool) : List Source → Except LoadError Catalog
  | [] => .error .missingBase
  | base :: rest => do
    let c ← (empty base.id).addSource excluded true base
    let c ← rest.foldlM (addSource excluded false) c
    c.checkHeads

def ofFragments (excluded : ItemKey → Bool) (fs : List Fragment) : Except LoadError Catalog :=
  ofSources excluded (fs.map Fragment.source)

end Catalog

end FragmentMerge

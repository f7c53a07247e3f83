import FragmentMerge.Config.File
import FragmentMerge.Features.Code
import FragmentMerge.Features.Field
import FragmentMerge.Features.Registry
import FragmentMerge.Patch.Batch

/-! The plan for the generated client: edits of its files, and the packages that it needs. The client
is either patched or extended; edits that belong to patching are left out in extension mode. -/

namespace FragmentMerge

inductive ToolError where
  | patch (error : PatchError)
  | config (error : ConfigError)
  | registry (error : RegistryError)
  deriving DecidableEq, Repr

namespace ToolError

def message : ToolError → String
  | patch e => e.message
  | config e => e.message
  | registry e => e.message

def causes : ToolError → List String
  | config e => e.causes
  | e => [e.message]

end ToolError

structure Plan where
  batch : Batch
  registry : Registry

structure PlanOutcome where
  patches : BatchSummary
  features : MaterializeSummary
  deriving DecidableEq, Repr

namespace Plan

/-- The package that the patched client requires. -/
def middlewarePackage : String := "middleware"

/-- The package for clients that are extended by hand. -/
def extensionsPackage : String := "extensions"

def sentinel : String := "schemaweave"

def splitKey (key : String) : Except ConfigError (String × String) :=
  match Text.cutFirst? '.' key.toList with
  | none => .error (.invalidKey (.missingColumn key))
  | some (model, field) =>
    if model.isEmpty || field.isEmpty then .error (.invalidKey (.emptyPart key))
    else .ok (String.ofList model, String.ofList field)

def fieldEdits (make : String → String → String → Edit) (t : Table String) :
    Except ConfigError (List Edit) :=
  t.entries.mapM fun (key, value) => (splitKey key).map fun (model, field) => make model field value

def typeEdits (c : Config) : Except ConfigError (List Edit) := do
  let types ← fieldEdits Field.typeEdit c.fieldTypes
  let notes ← fieldEdits Field.deprecationEdit c.deprecated
  pure (types ++ notes)

def package (c : Config) : String :=
  if c.output.extensionMode then extensionsPackage else middlewarePackage

def limits (c : Config) : Tree :=
  .table (c.staticTake.entries.map fun (k, n) => (k, .nat n.toNat))

def fill (word : String) (value : Tree) (code : String) : String :=
  Text.replaced word (Json.compact value) code

def registerLimits (c : Config) (r : Registry) : Except ToolError Registry :=
  if c.staticTake.isEmpty then .ok r
  else
    let code := if c.output.extensionMode then Code.staticTakeExtension else Code.staticTakeMiddleware
    (r.register (package c) "staticTake" (fill "__LIMITS__" (limits c) code)).mapError .registry

def searchIndex (c : Config) (schema : String) (keys : List ItemKey) : Table Tree :=
  Table.ofList ((keys.filter (!c.isExcluded ·)).map fun k =>
    (k.name, .table [("language", .text c.fullText.language), ("schema", .text schema),
      ("table", .text k.name)]))

def searchSchema (c : Config) : Except ConfigError String :=
  match c.fullText.schema with
  | some schema => .ok schema
  | none => .error (.missingField "fts.schema")

def registerSearch (c : Config) (r : Registry) : Except ToolError Registry :=
  if !c.fullText.isEnabled then .ok r
  else do
    let schema ← (searchSchema c).mapError ToolError.config
    let keys ← c.indexedKeys.mapError ToolError.config
    let index := searchIndex c schema keys
    let code := if c.output.extensionMode then Code.fullTextExtension else Code.fullTextMiddleware
    (r.register (package c) "fullTextSearch" (fill "__INDEXES__" (.table index.entries) code)).mapError
      .registry

def epilogue (d : Disk) (packageDir : String) : String :=
  let dir := Path.join d.hereText packageDir
  fill "__PACKAGE__" (.text dir) Code.clientEpilogue

def epilogueEdit (d : Disk) (packageDir : String) : Edit :=
  (Edit.of "client epilogue" <| .transform
    (Section.splice sentinel.toList (epilogue d packageDir).toList .epilogue)).skipping

def removalEdit : Edit :=
  Edit.of "client epilogue removal" (.transform (Section.remove sentinel.toList))

/-- The edits of the client's entry file. Without a middleware package its section must go. -/
def entryEdits (d : Disk) (r : Registry) (entry : String) : List Transaction :=
  if !(r.features middlewarePackage).isEmpty then
    [⟨entry, [epilogueEdit d (r.packageDir middlewarePackage)]⟩]
  else if d.isFile entry then [⟨entry, [removalEdit]⟩]
  else []

def build (c : Config) (d : Disk) : Except ToolError Plan := do
  let client := c.path c.output.client
  let edits ← (typeEdits c).mapError ToolError.config
  let types : List Transaction :=
    if edits.isEmpty then [] else [⟨Path.join client "index.d.ts", edits⟩]
  let r ← registerLimits c (Registry.new (c.path c.output.features))
  let r ← registerSearch c r
  let entry := entryEdits d r (Path.join client "index.js")
  pure ⟨⟨types ++ entry, c.output.extensionMode⟩, r⟩

def execute (p : Plan) (d : Disk) : Except ToolError PlanOutcome × Disk :=
  match p.registry.materialize d with
  | .error e d => (.error (.registry e), d)
  | .ok features d =>
    match p.batch.process d with
    | (.error e, d) => (.error (.patch e), d)
    | (.ok patches, d) => (.ok ⟨patches, features⟩, d)

end Plan

end FragmentMerge

import FragmentMerge.Config.Basic
import FragmentMerge.Data.Decode
import FragmentMerge.Toml.Writer

/-! Configurations as trees and as TOML documents. Absent values are left out when a configuration
is written, and a field that is left out has its initial value when it is read. -/

namespace FragmentMerge

open Decode

def ResolveKind.text : ResolveKind → String
  | .skip => "skip"
  | .rename => "rename"
  | .renameAll => "rename-rel"

def ResolveKind.words : List (String × ResolveKind) :=
  [("skip", .skip), ("rename", .rename), ("rename-rel", .renameAll)]

def presentEntry (name : String) : Option String → List (String × Tree)
  | none => []
  | some s => [(name, .text s)]

def ResolveRule.tree (r : ResolveRule) : Tree :=
  .table ([("target", .text r.target), ("action", .text r.action.text)] ++
    presentEntry "name" r.name ++ [("kind", .text r.kind.text)])

def ResolveRule.ofTree : Decoder ResolveRule := fun t => do
  let es ← record ["target", "action", "name", "kind"] t
  let target ← field es "target" text
  let action ← field es "action" (word ResolveKind.words)
  let name ← optional es "name" text
  let kind ← fieldOr es "kind" (word ItemKind.words) .model
  pure ⟨target, action, name, kind⟩

def NameRule.tree (r : NameRule) : Tree :=
  .table (presentEntry "name" r.name ++ presentEntry "pattern" r.pattern ++
    presentEntry "rename" r.rename ++ [("attributes", .texts r.attributes)])

def NameRule.ofTree : Decoder NameRule := fun t => do
  let es ← record ["name", "pattern", "rename", "attributes"] t
  let name ← optional es "name" text
  let pattern ← optional es "pattern" text
  let rename ← optional es "rename" text
  let attributes ← fieldOr es "attributes" (list text) []
  pure ⟨name, pattern, rename, attributes⟩

def NameRules.tree (r : NameRules) : Tree :=
  .table [("max_passes", .nat r.maxPasses), ("rules", .list (r.rules.map NameRule.tree))]

def NameRules.ofTree : Decoder NameRules := fun t => do
  let es ← record ["max_passes", "rules"] t
  let maxPasses ← fieldOr es "max_passes" (natBelow (Nat.pow 2 64)) NameRules.initial.maxPasses
  let rules ← fieldOr es "rules" (list NameRule.ofTree) []
  pure ⟨maxPasses, rules⟩

def ExtraGenerator.tree (g : ExtraGenerator) : Tree :=
  .table ([("name", .text g.name), ("provider", .text g.provider)] ++
    presentEntry "output" g.output ++ [("enabled", .bool g.enabled)])

def ExtraGenerator.ofTree : Decoder ExtraGenerator := fun t => do
  let es ← record ["name", "provider", "output", "enabled"] t
  let name ← field es "name" text
  let provider ← field es "provider" text
  let output ← optional es "output" text
  let enabled ← fieldOr es "enabled" bool true
  pure ⟨name, provider, output, enabled⟩

def IndexField.tree (f : IndexField) : Tree :=
  .table [("name", .text f.name), ("weight", .text f.weight)]

def IndexField.ofTree : Decoder IndexField := fun t => do
  let es ← record ["name", "weight"] t
  let name ← field es "name" text
  let weight ← fieldOr es "weight" text "A"
  pure ⟨name, weight⟩

def FullText.tree (f : FullText) : Tree :=
  .table (presentEntry "schema" f.schema ++ [("language", .text f.language),
    ("indexes", .table (f.indexes.entries.map fun (k, fs) => (k, .list (fs.map IndexField.tree))))])

def FullText.ofTree : Decoder FullText := fun t => do
  let es ← record ["schema", "language", "indexes"] t
  let schema ← optional es "schema" text
  let language ← fieldOr es "language" text FullText.initial.language
  let indexes ← fieldOr es "indexes" (table (list IndexField.ofTree)) .empty
  pure ⟨schema, language, indexes⟩

def Outputs.tree (o : Outputs) : Tree :=
  .table ([("schema", .text o.schema), ("client", .text o.client), ("features", .text o.features),
    ("extension_mode", .bool o.extensionMode)] ++
    presentEntry "generate_command" o.generateCommand)

def Outputs.ofTree : Decoder Outputs := fun t => do
  let es ← record ["schema", "client", "features", "extension_mode", "generate_command"] t
  let schema ← fieldOr es "schema" text Outputs.initial.schema
  let client ← fieldOr es "client" text Outputs.initial.client
  let features ← fieldOr es "features" text Outputs.initial.features
  let extensionMode ← fieldOr es "extension_mode" bool false
  let generateCommand ← optional es "generate_command" text
  pure ⟨schema, client, features, extensionMode, generateCommand⟩

namespace Config

/-- The configuration without its root, which is never written. -/
def tree (c : Config) : Tree :=
  .table (presentEntry "base" c.base ++ [
    ("include", .texts c.fragments),
    ("exclude", .texts c.exclude),
    ("cross_file_relations", .bool c.crossFile),
    ("relations", .textTable c.relations.entries),
    ("extended", .textTable c.extended.entries),
    ("resolve", .list (c.resolve.map ResolveRule.tree)),
    ("introspection", c.introspection.tree),
    ("generators", .list (c.generators.map ExtraGenerator.tree)),
    ("fts", c.fullText.tree),
    ("field_types", .textTable c.fieldTypes.entries),
    ("deprecated", .textTable c.deprecated.entries),
    ("static_take", .table (c.staticTake.entries.map fun (k, n) => (k, .nat n.toNat))),
    ("output", c.output.tree)])

def fieldNames : List String :=
  ["base", "include", "exclude", "cross_file_relations", "relations", "extended", "resolve",
   "introspection", "generators", "fts", "field_types", "deprecated", "static_take", "output"]

def word32 : Decoder UInt32 := fun t => UInt32.ofNat <$> natBelow (Nat.pow 2 32) t

def ofTree : Decoder Config := fun t => do
  let es ← record fieldNames t
  let base ← optional es "base" text
  let fragments ← fieldOr es "include" (list text) []
  let exclude ← fieldOr es "exclude" (list text) []
  let crossFile ← fieldOr es "cross_file_relations" bool false
  let relations ← fieldOr es "relations" (table text) .empty
  let extended ← fieldOr es "extended" (table text) .empty
  let resolve ← fieldOr es "resolve" (list ResolveRule.ofTree) []
  let introspection ← fieldOr es "introspection" NameRules.ofTree .initial
  let generators ← fieldOr es "generators" (list ExtraGenerator.ofTree) []
  let fullText ← fieldOr es "fts" FullText.ofTree .initial
  let fieldTypes ← fieldOr es "field_types" (table text) .empty
  let deprecated ← fieldOr es "deprecated" (table text) .empty
  let staticTake ← fieldOr es "static_take" (table word32) .empty
  let output ← fieldOr es "output" Outputs.ofTree .initial
  pure ⟨base, fragments, exclude, crossFile, relations, extended, resolve, introspection,
    generators, fullText, fieldTypes, deprecated, staticTake, output, ""⟩

def parse (s : String) : Except ConfigError Config :=
  match Toml.read? s with
  | none => .error (.parse "the document is no TOML")
  | some t => (ofTree t .toml).mapError fun e => .parse e.message

/-- Writes a configuration in TOML, whose numbers go up to the largest signed word. -/
def write (c : Config) : Except ConfigError String :=
  match Toml.write? c.tree with
  | none => .error (.serialize "number out of range")
  | some s => .ok s

end Config

end FragmentMerge

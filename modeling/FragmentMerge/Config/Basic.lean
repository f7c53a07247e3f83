import FragmentMerge.Schema.Action
import FragmentMerge.Files.Path
import FragmentMerge.Text.Matching
import FragmentMerge.Data.Table

/-! The configuration of a project: which fragments to merge, how to settle their conflicts, what to
add to the generated client, and where everything goes. -/

namespace FragmentMerge

inductive ConfigError where
  | io (detail : String)
  | parse (detail : String)
  | serialize (detail : String)
  | missingField (field : String)
  | invalidKey (error : KeyError)
  | invalidPattern (pattern detail : String)
  deriving DecidableEq, Repr

namespace ConfigError

def message : ConfigError → String
  | io detail => "IO error: " ++ detail
  | parse detail => "Parse error: " ++ detail
  | serialize detail => "Serialize error: " ++ detail
  | missingField field => s!"Missing required field '{field}'"
  | invalidKey error => "Invalid key: " ++ error.message
  | invalidPattern pattern detail => s!"Invalid pattern '{pattern}': {detail}"

def causes : ConfigError → List String
  | invalidKey error => [(invalidKey error).message, error.message]
  | e => [e.message]

end ConfigError

def liftKey (r : Except KeyError α) : Except ConfigError α := r.mapError .invalidKey

def compilePattern [PatternEngine] (s : String) : Except ConfigError Matching :=
  (PatternEngine.compile? s).mapError (.invalidPattern s)

inductive ResolveKind where
  | skip
  | rename
  | renameAll
  deriving DecidableEq, Repr

/-- A configured answer for one side of a conflict. -/
structure ResolveRule where
  target : String
  action : ResolveKind
  name : Option String
  kind : ItemKind
  deriving DecidableEq, Repr

def ResolveRule.newName (r : ResolveRule) : Except ConfigError String :=
  match r.name.filter (!·.isEmpty) with
  | some name => .ok name
  | none => .error (.missingField s!"resolve[{r.target}].name")

def ResolveRule.answer (r : ResolveRule) : Except ConfigError (ItemKey × Action) := do
  let target ← liftKey (ItemKey.parse r.target)
  match r.action with
  | .skip => pure (target, .skip r.kind)
  | .rename => pure (target, .rename (← r.newName) r.kind)
  | .renameAll => pure (target, .renameAll (← r.newName) r.kind)

/-- A rule that renames models, or adds attributes to them, by their name. -/
structure NameRule where
  name : Option String
  pattern : Option String
  rename : Option String
  attributes : List String
  deriving DecidableEq, Repr

structure NameRules where
  maxPasses : Nat
  rules : List NameRule
  deriving DecidableEq, Repr

def NameRules.initial : NameRules := ⟨16, []⟩

def NameRule.unnamed (i : Nat) : ConfigError :=
  .missingField s!"introspection.rules[{i}].name or pattern"

structure ExtraGenerator where
  name : String
  provider : String
  output : Option String
  enabled : Bool
  deriving DecidableEq, Repr

def ExtraGenerator.block (g : ExtraGenerator) : String :=
  "generator " ++ g.name ++ " \x7b\n  provider = \"" ++ g.provider ++ "\"\n" ++
    (match g.output with
      | some output => "  output   = \"" ++ output ++ "\"\n"
      | none => "") ++ "\x7d"

structure IndexField where
  name : String
  weight : String
  deriving DecidableEq, Repr

/-- Full-text search: the indexed models, each with its weighted fields. -/
structure FullText where
  schema : Option String
  language : String
  indexes : Table (List IndexField)
  deriving DecidableEq, Repr

def FullText.initial : FullText := ⟨none, "english", .empty⟩

def FullText.isEnabled (t : FullText) : Bool := !t.indexes.isEmpty

structure Outputs where
  schema : String
  client : String
  features : String
  extensionMode : Bool
  generateCommand : Option String
  deriving DecidableEq, Repr

def Outputs.initial : Outputs :=
  ⟨".schemaweave/schema.prisma", "node_modules/.prisma/client", ".schemaweave/features", false, none⟩

structure Config where
  base : Option String
  /-- Further fragments: files, or directories of files. -/
  fragments : List String
  exclude : List String
  crossFile : Bool
  relations : Table String
  extended : Table String
  resolve : List ResolveRule
  introspection : NameRules
  generators : List ExtraGenerator
  fullText : FullText
  fieldTypes : Table String
  deprecated : Table String
  staticTake : Table UInt32
  output : Outputs
  /-- The directory that relative paths start at. -/
  root : String
  deriving DecidableEq, Repr

namespace Config

def initial : Config :=
  ⟨none, [], [], false, .empty, .empty, [], .initial, [], .initial, .empty, .empty, .empty, .initial, ""⟩

def isBlankField (s : Option String) : Bool := s.all String.isEmpty

def relationTable (c : Config) : Except ConfigError (List (ColumnKey × ItemKey)) :=
  c.relations.entries.mapM fun (source, target) => do
    let source ← liftKey (ColumnKey.parse source)
    let target ← liftKey (ItemKey.parse target)
    pure (source, target)

def extendedTable (c : Config) : Except ConfigError (List (ItemKey × ItemKey)) :=
  c.extended.entries.mapM fun (child, parent) => do
    let child ← liftKey (ItemKey.parse child)
    let parent ← liftKey (ItemKey.parse parent)
    pure (child, parent)

def answers (c : Config) : Except ConfigError (List (ItemKey × Action)) :=
  c.resolve.mapM ResolveRule.answer

def indexedKeys (c : Config) : Except ConfigError (List ItemKey) :=
  c.fullText.indexes.entries.mapM fun (key, _) => liftKey (ItemKey.parse key)

/-- Checks that each rule from the `i`th on says what it matches, and that patterns are sound. -/
def checkRules [PatternEngine] (i : Nat) : List NameRule → Except ConfigError Unit
  | [] => .ok ()
  | r :: rs =>
    if r.name.isNone && r.pattern.isNone then .error (NameRule.unnamed i)
    else match r.pattern with
      | none => checkRules (i + 1) rs
      | some p =>
        match compilePattern p with
        | .error e => .error e
        | .ok _ => checkRules (i + 1) rs

def require (ok : Bool) (field : String) : Except ConfigError Unit :=
  if ok then .ok () else .error (.missingField field)

/-- Checks all that a merge needs. -/
def validate [PatternEngine] (c : Config) : Except ConfigError Unit := do
  require (!isBlankField c.base) "base"
  require (!(c.fullText.isEnabled && isBlankField c.fullText.schema)) "fts.schema"
  let _ ← c.indexedKeys
  let _ ← c.relationTable
  let _ ← c.extendedTable
  let _ ← c.answers
  checkRules 0 c.introspection.rules
  require (c.introspection.maxPasses != 0) "introspection.max_passes"

/-- Whether a pattern with a star matches: what stands before the first star, anything, and what
stands after it. A lone or doubled star matches everything. -/
def globMatches (pattern text : List Char) : Bool :=
  if pattern = ['*'] || pattern = ['*', '*'] then true
  else match Text.cutFirst? '*' pattern with
    | none => pattern == text
    | some (before, after) =>
      match Text.after? before text with
      | none => false
      | some rest => Text.endsWith rest after

def isExcluded (c : Config) (k : ItemKey) : Bool :=
  c.exclude.any fun p => globMatches p.toList k.text.toList

def path (c : Config) (p : String) : String := Path.join c.root p

end Config

end FragmentMerge

import FragmentMerge.Session.Basic

/-! The merged document: a header line, the generator and the datasource, the visible models, the
visible enums, and further blocks. Models come with the columns that remaps and parents give them. -/

namespace FragmentMerge

structure Document where
  text : String
  models : Nat
  enums : Nat
  deriving DecidableEq, Repr

namespace Document

def headerLine : String := "// Merged by schemaweave. Edit the source fragments, not this file."

def hasColumn (cs : List Column) (name : String) : Bool := cs.any fun c => !c.isRaw && c.name == name

def isBlockAttribute (c : Column) : Bool := c.isRaw && Text.startsWith c.name.toList ['@', '@']

/-- Puts a column before the first attribute of the whole model. -/
def insertField (c : Column) : List Column → List Column
  | [] => [c]
  | d :: ds => if isBlockAttribute d then c :: d :: ds else d :: insertField c ds

def insertNew (cs : List Column) (c : Column) : List Column :=
  if hasColumn cs c.name then cs else insertField c cs

/-- A column of a model with the type that remaps give it; a column without a remap that names a
replaced model of its own fragment names the replacement. -/
def redirect (r : Replay) (k : ItemKey) (c : Column) : Column :=
  if c.isRaw then c
  else match r.remaps.find? fun e => e.1.item == k && e.1.column == c.name with
  | some e => c.retype e.2.name
  | none =>
    match r.shadows.find? fun e => e.1.file == k.file && e.1.name == c.baseType with
    | some e => c.retype e.2.name
    | none => c

/-- A column for the far side of a relation: it names a model but does not hold the relation. -/
def isInverse (catalog : Catalog) (c : Column) : Bool :=
  !c.isRaw && !c.isId && catalog.isModelName c.baseType && !c.holdsRelation

/-- A column that a parent hands down. -/
def isDonated (catalog : Catalog) (c : Column) : Bool :=
  !c.isRaw && !c.isId && !c.isRelation && !catalog.isModelName c.baseType

/-- The columns that a model takes over: those for the far side of relations from the models that it
replaces, then those handed down by its parents. -/
def copied (r : Replay) (k : ItemKey) : List Column :=
  let replaced := (r.shadows.filter (·.2 == k)).filterMap fun e => r.catalog.model? e.1
  let parents := (r.extended.filter (·.1 == k)).filterMap fun e => r.catalog.model? e.2
  replaced.flatMap (fun m => m.columns.filter (isInverse r.catalog)) ++
    parents.flatMap (fun m => m.columns.filter (isDonated r.catalog))

def columnsOf (r : Replay) (m : Model) : List Column :=
  (copied r m.key).foldl insertNew (m.columns.map (redirect r m.key))

def indented (lines : List String) : String := String.join (lines.map fun l => "  " ++ l ++ "\n")

def block (keyword file name : String) (lines : List String) : String :=
  "// source: " ++ file ++ "\n" ++ keyword ++ " " ++ name ++ " \x7b\n" ++ indented lines ++ "\x7d"

def modelBlock (r : Replay) (m : Model) : String :=
  block "model" m.key.file m.key.name ((columnsOf r m).map Column.format)

def enumBlock (e : EnumItem) : String := block "enum" e.key.file e.name e.values

def visibleModels (r : Replay) : List Model := r.catalog.models.filter fun m => r.isVisible m.key

def visibleEnums (r : Replay) : List EnumItem := r.catalog.enums.filter fun e => r.isVisible e.key

/-- The document of a replay, with further blocks at its end. -/
def ofReplay (r : Replay) (blocks : List String) : Document :=
  let sections := [headerLine, r.catalog.generator, r.catalog.datasource] ++
    (visibleModels r).map (modelBlock r) ++ (visibleEnums r).map enumBlock ++
    blocks.map Text.trimmed
  ⟨"\n\n".intercalate sections ++ "\n", (visibleModels r).length, (visibleEnums r).length⟩

end Document

end FragmentMerge

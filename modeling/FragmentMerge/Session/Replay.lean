import FragmentMerge.Catalog.Conflict
import FragmentMerge.Schema.Action

/-! Replay: a queue of actions carried out one by one on a catalog. Besides the catalog a replay keeps
the active remaps, the models that others have replaced, and the links from models to their parents;
all of them follow the renamings. -/

namespace FragmentMerge

inductive Mutation where
  | removed (key : ItemKey) (kind : ItemKind)
  | renamed (old new : ItemKey) (retyped : Nat)
  | remapped (source : ColumnKey) (target : ItemKey) (shadowed : Option ItemKey)
  | attributeAdded (key : ItemKey) (line : String)
  | absent (key : ItemKey) (action : Action)
  | nameTaken (key : ItemKey) (name : String)
  deriving DecidableEq, Repr

/-- Sets the value of a key in place, or adds it at the end. -/
def upsert [DecidableEq κ] (k : κ) (v : α) : List (κ × α) → List (κ × α)
  | [] => [(k, v)]
  | e :: es => if e.1 = k then (e.1, v) :: es else e :: upsert k v es

abbrev Remaps := List (ColumnKey × ItemKey)

abbrev Links := List (ItemKey × ItemKey)

namespace Catalog

/-- Whether the columns of a fragment that name `old` mean the renamed item: in its own fragment
always, elsewhere when all are to follow and the fragment declares no such name itself. -/
def inScope (c : Catalog) (target : ItemKey) (all : Bool) (file : String) : Bool :=
  file == target.file || (all && !c.keys.any fun k => k.name == target.name && k.file == file)

def refersTo (old : String) (col : Column) : Bool := !col.isRaw && col.baseType == old

def retypeColumn (old new : String) (col : Column) : Column :=
  if refersTo old col then col.retype new else col

def retypeModel (old new : String) (m : Model) : Model :=
  { m with columns := m.columns.map (retypeColumn old new) }

/-- Gives the new name to the columns that name a renamed item. -/
def retypeReferences (c : Catalog) (target : ItemKey) (new : String) (all : Bool) : Catalog :=
  { c with models := c.models.map fun m =>
      if c.inScope target all m.key.file then retypeModel target.name new m else m }

def countReferences (c : Catalog) (target : ItemKey) (all : Bool) : Nat :=
  ((c.models.filter fun m => c.inScope target all m.key.file).flatMap Model.columns).countP
    (refersTo target.name)

end Catalog

structure Replay where
  catalog : Catalog
  remaps : Remaps
  shadows : Links
  extended : Links
  log : List Mutation
  deriving DecidableEq, Repr

namespace Replay

def start (pristine : Catalog) (links : Links) : Replay := ⟨pristine, [], [], links, []⟩

def note (r : Replay) (m : Mutation) : Replay := { r with log := r.log ++ [m] }

def follow (old new k : ItemKey) : ItemKey := if k = old then new else k

def followColumn (old new : ItemKey) (k : ColumnKey) : ColumnKey :=
  { k with item := follow old new k.item }

/-- A renamed model is no longer replaced; whatever names it otherwise follows it. -/
def followAll (r : Replay) (old new : ItemKey) : Replay :=
  { r with
    remaps := r.remaps.map fun (s, t) => (followColumn old new s, follow old new t)
    shadows := (r.shadows.filter (·.1 != old)).map fun (s, t) => (s, follow old new t)
    extended := r.extended.map fun (c, p) => (follow old new c, follow old new p) }

def skip (r : Replay) (target : ItemKey) (kind : ItemKind) : Replay :=
  match r.catalog.remove? target kind with
  | some c => { r with catalog := c }.note (.removed target kind)
  | none => r.note (.absent target (.skip kind))

def rename (r : Replay) (target : ItemKey) (action : Action) (name : String) (all : Bool) : Replay :=
  if r.catalog.isTaken target name then r.note (.nameTaken target name)
  else match r.catalog.rename? target action.kind name with
  | none => r.note (.absent target action)
  | some c =>
    let r' := { r with catalog := c.retypeReferences target name all }
    (r'.followAll target (target.renamed name)).note
      (.renamed target (target.renamed name) (c.countReferences target all))

/-- The model that a remap puts out of use: the one in the column's own fragment that the column
named. -/
def shadowed? (r : Replay) (source : ColumnKey) (target : ItemKey) : Option ItemKey :=
  ((r.catalog.model? source.item).bind (·.column? source.column)).map
      (fun c => source.item.renamed c.baseType)
    |>.filter fun s => s != target && (r.catalog.model? s).isSome

def remap (r : Replay) (source : ColumnKey) (target : ItemKey) : Replay :=
  let shadow := r.shadowed? source target
  { r with
    remaps := upsert source target r.remaps
    shadows := match shadow with
      | some s => upsert s target r.shadows
      | none => r.shadows }.note (.remapped source target shadow)

def act (r : Replay) (entry : ItemKey × Action) : Replay :=
  match entry.2 with
  | .skip kind => r.skip entry.1 kind
  | .rename name _ => r.rename entry.1 entry.2 name false
  | .renameAll name _ => r.rename entry.1 entry.2 name true
  | .remap source target _ => r.remap source target

/-- Adds an attribute to the models of a name that do not have it. -/
def addAttribute (r : Replay) (a : String × String) : Replay :=
  let line := Column.parse a.2
  let lacks (m : Model) : Bool := m.key.name == a.1 && !m.hasLine line
  { r with
    catalog := { r.catalog with
      models := r.catalog.models.map fun m => if lacks m then m.push line else m }
    log := r.log ++ (r.catalog.models.filter lacks).map fun m => .attributeAdded m.key a.2 }

/-- Carries out a queue, then adds attributes. -/
def run (pristine : Catalog) (links : Links) (queue : List (ItemKey × Action))
    (attributes : List (String × String)) : Replay :=
  attributes.foldl addAttribute (queue.foldl act (start pristine links))

/-- The items that take part neither in conflicts nor in the document: replaced models, and the
parents of other models. -/
def hidden (r : Replay) : List ItemKey := r.shadows.map (·.1) ++ r.extended.map (·.2)

def isVisible (r : Replay) (k : ItemKey) : Bool := !r.hidden.contains k

def conflicts (r : Replay) : List Conflict := r.catalog.conflicts r.hidden

def relationsTo (m : Model) (name : String) : List ColumnKey :=
  (m.columns.filter fun c => !c.isRaw && c.isRelation && c.baseType == name).map
    fun c => m.key.column c.name

def referring (r : Replay) (name : String) : List ColumnKey :=
  (r.catalog.models.filter fun m => r.isVisible m.key).flatMap fun m => relationsTo m name

end Replay

end FragmentMerge

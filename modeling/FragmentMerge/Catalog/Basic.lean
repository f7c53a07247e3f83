import FragmentMerge.Schema.Key
import FragmentMerge.Schema.Column

/-! The catalog of all loaded fragments: their models and enums, in load order. Look-ups, removals and
renamings take the first item with the key. -/

namespace FragmentMerge

structure Model where
  key : ItemKey
  columns : List Column
  line : Nat
  deriving DecidableEq, Repr

structure EnumItem where
  key : ItemKey
  name : String
  values : List String
  line : Nat
  deriving DecidableEq, Repr

namespace Model

def column? (m : Model) (name : String) : Option Column :=
  m.columns.find? fun c => !c.isRaw && c.name == name

def hasLine (m : Model) (c : Column) : Bool := m.columns.any fun d => d.format == c.format

def push (m : Model) (c : Column) : Model := { m with columns := m.columns ++ [c] }

end Model

structure Catalog where
  base : String
  generator : String
  datasource : String
  files : List String
  models : List Model
  enums : List EnumItem
  deriving DecidableEq, Repr

namespace Catalog

def model? (c : Catalog) (k : ItemKey) : Option Model := c.models.find? (·.key == k)

def enum? (c : Catalog) (k : ItemKey) : Option EnumItem := c.enums.find? (·.key == k)

def kindOf? (c : Catalog) (k : ItemKey) : Option ItemKind :=
  if (c.enum? k).isSome then some .enum
  else if (c.model? k).isSome then some .model
  else none

def contains (c : Catalog) (k : ItemKey) : Bool := (c.kindOf? k).isSome

/-- Whether a fragment declares a model or enum of this name. -/
def declares (c : Catalog) (file name : String) : Bool := c.contains ⟨file, name⟩

def isModelName (c : Catalog) (name : String) : Bool := c.models.any (·.key.name == name)

def keys (c : Catalog) : List ItemKey := c.models.map (·.key) ++ c.enums.map (·.key)

def takeOut? (p : α → Bool) : List α → Option (α × List α)
  | [] => none
  | a :: as => if p a then some (a, as) else (takeOut? p as).map fun (b, bs) => (b, a :: bs)

def changeFirst? (p : α → Bool) (f : α → α) : List α → Option (List α)
  | [] => none
  | a :: as => if p a then some (f a :: as) else (changeFirst? p f as).map (a :: ·)

def removeModel? (c : Catalog) (k : ItemKey) : Option (Model × Catalog) :=
  (takeOut? (·.key == k) c.models).map fun (m, models) => (m, { c with models })

def removeEnum? (c : Catalog) (k : ItemKey) : Option (EnumItem × Catalog) :=
  (takeOut? (·.key == k) c.enums).map fun (e, enums) => (e, { c with enums })

/-- Removes an item of a kind. -/
def remove? (c : Catalog) (k : ItemKey) : ItemKind → Option Catalog
  | .model => (c.removeModel? k).map (·.2)
  | .enum => (c.removeEnum? k).map (·.2)

def changeModel? (c : Catalog) (k : ItemKey) (f : Model → Model) : Option Catalog :=
  (changeFirst? (·.key == k) f c.models).map fun models => { c with models }

def changeEnum? (c : Catalog) (k : ItemKey) (f : EnumItem → EnumItem) : Option Catalog :=
  (changeFirst? (·.key == k) f c.enums).map fun enums => { c with enums }

/-- Whether a fragment already declares the new name that an item is to have. -/
def isTaken (c : Catalog) (k : ItemKey) (name : String) : Bool :=
  name != k.name && c.declares k.file name

/-- Renames an item in place; none when the new name is taken or there is no such item. -/
def rename? (c : Catalog) (k : ItemKey) (kind : ItemKind) (name : String) : Option Catalog :=
  if c.isTaken k name then none
  else match kind with
  | .model => c.changeModel? k fun m => { m with key := k.renamed name }
  | .enum => c.changeEnum? k fun e => { e with key := k.renamed name, name }

end Catalog

end FragmentMerge

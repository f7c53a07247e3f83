import FragmentMerge.Schema.Key

/-! Actions: what is to be done to an item so that its name is no longer in conflict. -/

namespace FragmentMerge

inductive Action where
  | skip (kind : ItemKind)
  | rename (name : String) (kind : ItemKind)
  /-- Renames the item and what refers to it in all fragments. -/
  | renameAll (name : String) (kind : ItemKind)
  /-- Points a relation column at another model. -/
  | remap (source : ColumnKey) (target : ItemKey) (kind : ItemKind)
  deriving DecidableEq, Repr

namespace Action

def kind : Action → ItemKind
  | skip k => k
  | rename _ k => k
  | renameAll _ k => k
  | remap _ _ k => k

def newName? : Action → Option String
  | rename name _ => some name
  | renameAll name _ => some name
  | _ => none

def text : Action → String
  | skip k => "skip " ++ k.text
  | rename name k => s!"rename {k.text} to {name}"
  | renameAll name k => s!"rename {k.text} to {name} (with relations)"
  | remap source target _ => s!"remap {source.text} to {target.text}"

end Action

end FragmentMerge

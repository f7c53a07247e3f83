import FragmentMerge.Catalog.Basic

/-! Conflicts: pairs of items that share a name and are both visible. They come in load order, grouped
by the first appearance of the name. -/

namespace FragmentMerge

structure Conflict where
  left : ItemKey
  right : ItemKey
  kind : ItemKind
  deriving DecidableEq, Repr

namespace Conflict

def name (c : Conflict) : String := c.left.name

def sides (c : Conflict) : List ItemKey := [c.left, c.right]

def text (c : Conflict) : String :=
  s!"{c.kind.text} '{c.left.name}' declared in {c.left.file} and {c.right.file}"

end Conflict

namespace Catalog

/-- Puts a key into the group of its name, or into a new group at the end. -/
def intoGroup (k : ItemKey) : List (String × List ItemKey) → List (String × List ItemKey)
  | [] => [(k.name, [k])]
  | (name, ks) :: gs => if name = k.name then (name, ks ++ [k]) :: gs else (name, ks) :: intoGroup k gs

/-- Keys grouped by name, in order of first appearance. -/
def groups (ks : List ItemKey) : List (String × List ItemKey) :=
  ks.foldl (fun gs k => intoGroup k gs) []

def pairs : List α → List (α × α)
  | [] => []
  | a :: as => as.map (a, ·) ++ pairs as

/-- A conflict with an enum on either side is one between enums. -/
def conflictOf (c : Catalog) (p : ItemKey × ItemKey) : Conflict :=
  let isEnum (k : ItemKey) := c.kindOf? k == some .enum
  ⟨p.1, p.2, if isEnum p.1 || isEnum p.2 then .enum else .model⟩

def visibleKeys (c : Catalog) (hidden : List ItemKey) : List ItemKey :=
  c.keys.filter (!hidden.contains ·)

def conflicts (c : Catalog) (hidden : List ItemKey) : List Conflict :=
  (groups (c.visibleKeys hidden)).flatMap fun g => (pairs g.2).map c.conflictOf

end Catalog

end FragmentMerge

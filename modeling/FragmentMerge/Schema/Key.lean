import FragmentMerge.Text.Basic

/-! Keys. An item is a model or an enum; it is known by its fragment and its name, and a column by
its item and its name. Written keys put a colon after the fragment and a dot before the column. -/

namespace FragmentMerge

inductive ItemKind where
  | model
  | enum
  deriving DecidableEq, Repr

def ItemKind.text : ItemKind → String
  | .model => "model"
  | .enum => "enum"

def ItemKind.words : List (String × ItemKind) := [("model", .model), ("enum", .enum)]

structure ItemKey where
  file : String
  name : String
  deriving DecidableEq, Repr, Inhabited

structure ColumnKey where
  item : ItemKey
  column : String
  deriving DecidableEq, Repr

inductive KeyError where
  | missingSeparator (key : String)
  | missingColumn (key : String)
  | emptyPart (key : String)
  deriving DecidableEq, Repr

def KeyError.message : KeyError → String
  | .missingSeparator key => s!"key '{key}' is missing the ':' between file and name"
  | .missingColumn key => s!"key '{key}' is missing the '.' before the column name"
  | .emptyPart key => s!"key '{key}' has an empty file, model or column part"

namespace ItemKey

def text (k : ItemKey) : String := k.file ++ ":" ++ k.name

def renamed (k : ItemKey) (name : String) : ItemKey := { k with name }

def column (k : ItemKey) (c : String) : ColumnKey := ⟨k, c⟩

/-- Reads a written key: the last colon separates, so a fragment may hold colons. -/
def parse (s : String) : Except KeyError ItemKey :=
  match Text.cutLast? ':' s.toList with
  | none => .error (.missingSeparator s)
  | some (file, name) =>
    if file.isEmpty || name.isEmpty then .error (.emptyPart s)
    else .ok ⟨String.ofList file, String.ofList name⟩

end ItemKey

namespace ColumnKey

def text (k : ColumnKey) : String := k.item.text ++ "." ++ k.column

/-- Reads a written key: after the last colon, the first dot ends the name of the model. -/
def parse (s : String) : Except KeyError ColumnKey :=
  match Text.cutLast? ':' s.toList with
  | none => .error (.missingSeparator s)
  | some (file, rest) =>
    match Text.cutFirst? '.' rest with
    | none => .error (.missingColumn s)
    | some (name, column) =>
      if file.isEmpty || name.isEmpty || column.isEmpty then .error (.emptyPart s)
      else .ok ⟨⟨String.ofList file, String.ofList name⟩, String.ofList column⟩

end ColumnKey

end FragmentMerge

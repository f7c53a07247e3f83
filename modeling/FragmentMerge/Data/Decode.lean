import FragmentMerge.Data.Tree
import FragmentMerge.Data.Table

/-! Reads values out of trees. A record may be written as a table, whose unknown entries do not
matter, or as the list of its fields in order. How exact such a list has to be, and what may stand
beside a word that is written as the key of a table, depends on the form that the tree comes from. -/

namespace FragmentMerge

inductive DecodeError where
  | missing (field : String)
  | mismatch (expected : String)
  deriving DecidableEq, Repr

def DecodeError.message : DecodeError → String
  | .missing field => s!"missing field '{field}'"
  | .mismatch expected => "invalid type: expected " ++ expected

/-- What the form of a document allows. -/
structure Form where
  /-- Whether the list of a record may go on after its last field. -/
  runsOn : Bool
  /-- What may stand beside a word that is the only key of a table. -/
  isVoid : Tree → Bool

namespace Form

def json : Form where
  runsOn := false
  isVoid
    | .null => true
    | _ => false

def toml : Form where
  runsOn := true
  isVoid
    | .list [] => true
    | .table [] => true
    | _ => false

/-- The form of the fields of an action, once the word that names it has been taken out. -/
def fieldsOfAction : Form where
  runsOn := false
  isVoid
    | .null => true
    | .table [] => true
    | _ => false

end Form

abbrev Reading := ReaderT Form (Except DecodeError)

abbrev Decoder (α : Type) := Tree → Reading α

namespace Decode

def mismatch (expected : String) : Reading α := throw (.mismatch expected)

def text : Decoder String
  | .text s => pure s
  | _ => mismatch "a string"

def bool : Decoder Bool
  | .bool b => pure b
  | _ => mismatch "a boolean"

def natBelow (limit : Nat) : Decoder Nat
  | .int i => if 0 ≤ i && i < limit then pure i.toNat else mismatch "a natural number"
  | _ => mismatch "a natural number"

def list (d : Decoder α) : Decoder (List α)
  | .list items => items.mapM d
  | _ => mismatch "a list"

/-- A null stands for an absent value. -/
def option (d : Decoder α) : Decoder (Option α)
  | .null => pure none
  | t => some <$> d t

/-- The entry that a date has when it is read as a table. -/
def dateKey : String := "$__toml_private_datetime"

def entry (d : Decoder α) (e : String × Tree) : Reading (String × α) := do
  let a ← d e.2
  pure (e.1, a)

def table (d : Decoder α) : Decoder (Table α)
  | .table es => Table.ofList <$> es.mapM (entry d)
  | .date w => do
    let e ← entry d (dateKey, .text w)
    pure (Table.ofList [e])
  | _ => mismatch "a map"

/-- One word of a choice, written alone or as the only key of a table. -/
def word (words : List (String × α)) : Decoder α := fun t => do
  let form ← read
  let found := match t with
    | .text s => words.lookup s
    | .table [(s, v)] => if form.isVoid v then words.lookup s else none
    | _ => none
  match found with
  | some a => pure a
  | none => mismatch "a known word"

/-- The fields of a record as they were written; in a list none before the last may be absent. -/
structure Fields where
  entries : List (String × Tree)
  isList : Bool

def record (names : List String) : Decoder Fields
  | .table es => pure ⟨es, false⟩
  | .date _ => pure ⟨[], false⟩
  | .list items => do
    let form ← read
    if names.length < items.length && !form.runsOn then mismatch "fewer fields"
    else pure ⟨names.zip items, true⟩
  | _ => mismatch "a record"

def field (fs : Fields) (name : String) (d : Decoder α) : Reading α :=
  match fs.entries.lookup name with
  | some t => d t
  | none => throw (.missing name)

def fieldOr (fs : Fields) (name : String) (d : Decoder α) (a : α) : Reading α :=
  match fs.entries.lookup name with
  | some t => d t
  | none => pure a

def optional (fs : Fields) (name : String) (d : Decoder α) : Reading (Option α) :=
  fieldOr fs name (option d) none

/-- A value that may be left out of a table but not out of a list. -/
def absentable (fs : Fields) (name : String) (d : Decoder α) : Reading (Option α) :=
  if fs.isList then field fs name (option d) else optional fs name d

end Decode

end FragmentMerge

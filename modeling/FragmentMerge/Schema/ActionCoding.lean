import FragmentMerge.Schema.Action
import FragmentMerge.Data.Decode

/-! Actions as trees: a table with the action's word and its fields. -/

namespace FragmentMerge.Action

open Decode

def tree : Action → Tree
  | skip k => .table [("action", .text "skip"), ("item", .text k.text)]
  | rename name k =>
    .table [("action", .text "rename"), ("new_name", .text name), ("item", .text k.text)]
  | renameAll name k =>
    .table [("action", .text "rename-rel"), ("new_name", .text name), ("item", .text k.text)]
  | remap source target k =>
    .table [("action", .text "remap"), ("from", .text source.text), ("to", .text target.text),
      ("item", .text k.text)]

def key (parse : String → Except KeyError α) : Decoder α := fun t => do
  let s ← Decode.text t
  match parse s with
  | .ok k => pure k
  | .error e => mismatch e.message

/-- The fields of each action, in order. -/
def fieldNames : String → List String
  | "skip" => ["action", "item"]
  | "remap" => ["action", "from", "to", "item"]
  | _ => ["action", "new_name", "item"]

/-- The word of an action, as an entry or as the first item of a list. -/
def tag : Decoder String
  | .list (t :: _) => Decode.text t
  | .table es => field ⟨es, false⟩ "action" Decode.text
  | _ => mismatch "an action"

def ofWord (word : String) : Decoder Action := fun t => do
  let fs ← record (fieldNames word) t
  let kind ← field fs "item" (Decode.word ItemKind.words)
  match word with
  | "skip" => pure (.skip kind)
  | "rename" => pure (.rename (← field fs "new_name" Decode.text) kind)
  | "rename-rel" => pure (.renameAll (← field fs "new_name" Decode.text) kind)
  | "remap" =>
    pure (.remap (← field fs "from" (key ColumnKey.parse)) (← field fs "to" (key ItemKey.parse)) kind)
  | _ => mismatch "an action"

def ofTree : Decoder Action := fun t => do
  let word ← tag t
  withReader (fun _ => Form.fieldsOfAction) (ofWord word t)

end FragmentMerge.Action

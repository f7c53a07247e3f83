import FragmentMerge.Data.Tree

/-! Trees written as JSON, on one line or indented by two blanks. Only quotes, backslashes and
control characters are escaped. -/

namespace FragmentMerge.Json

def escapeChar (c : Char) : List Char :=
  match c with
  | '"' => ['\\', '"']
  | '\\' => ['\\', '\\']
  | '\n' => ['\\', 'n']
  | '\r' => ['\\', 'r']
  | '\t' => ['\\', 't']
  | '\x08' => ['\\', 'b']
  | '\x0c' => ['\\', 'f']
  | c =>
    if c.toNat < 0x20 then ['\\', 'u', '0', '0', Nat.digitChar (c.toNat / 16), Nat.digitChar (c.toNat % 16)]
    else [c]

def quote (s : String) : String :=
  String.ofList ('"' :: (s.toList.flatMap escapeChar ++ ['"']))

def enclose (l r : String) (items : List String) : String :=
  l ++ ",".intercalate items ++ r

def encloseLines (level : Nat) (l r : String) (items : List String) : String :=
  if items.isEmpty then l ++ r
  else
    let pad := "".pushn ' ' (2 * level)
    let inner := pad ++ "  "
    l ++ "\n" ++ ",\n".intercalate (items.map (inner ++ ·)) ++ "\n" ++ pad ++ r

mutual

def compact : Tree → String
  | .null => "null"
  | .bool b => if b then "true" else "false"
  | .int i => toString i
  | .float w => w
  | .date w => quote w
  | .text s => quote s
  | .list items => enclose "[" "]" (compactItems items)
  | .table entries => enclose "\x7b" "\x7d" (compactEntries entries)

def compactItems : List Tree → List String
  | [] => []
  | t :: ts => compact t :: compactItems ts

def compactEntries : List (String × Tree) → List String
  | [] => []
  | (k, t) :: es => (quote k ++ ":" ++ compact t) :: compactEntries es

end

mutual

def indented (level : Nat) : Tree → String
  | .list items => encloseLines level "[" "]" (indentedItems (level + 1) items)
  | .table entries => encloseLines level "\x7b" "\x7d" (indentedEntries (level + 1) entries)
  | t => compact t

def indentedItems (level : Nat) : List Tree → List String
  | [] => []
  | t :: ts => indented level t :: indentedItems level ts

def indentedEntries (level : Nat) : List (String × Tree) → List String
  | [] => []
  | (k, t) :: es => (quote k ++ ": " ++ indented level t) :: indentedEntries level es

end

def pretty (t : Tree) : String := indented 0 t

end FragmentMerge.Json

import FragmentMerge.Toml.Reader

/-! Writes a tree of tables as a TOML document. In each table the plain entries come first, then
the tables below it, each under a header of its own. -/

namespace FragmentMerge.Toml

def hex4 (n : Nat) : List Char :=
  [n / 4096 % 16, n / 256 % 16, n / 16 % 16, n % 16].map Nat.digitChar

def escaped (c : Char) : List Char :=
  match c with
  | '"' => ['\\', '"']
  | '\\' => ['\\', '\\']
  | '\n' => ['\\', 'n']
  | '\r' => ['\\', 'r']
  | '\t' => ['\\', 't']
  | c => if isPrintable c then [c] else '\\' :: 'u' :: hex4 c.toNat

def quote (s : String) : String := String.ofList ('"' :: (s.toList.flatMap escaped ++ ['"']))

def writeKey (k : String) : String :=
  if k.isEmpty || !k.toList.all isBare then quote k else k

def isTable : Tree → Bool
  | .table _ => true
  | _ => false

/-- Whether an entry is written under headers of its own. -/
def hasHeader : Tree → Bool
  | .table _ => true
  | .list (t :: ts) => (t :: ts).all isTable
  | _ => false

mutual

/-- A value on the line of its key; none when TOML has no form for it. -/
def inline? : Tree → Option String
  | .null => none
  | .bool b => some (if b then "true" else "false")
  | .int i => (inRange i).map toString
  | .float w => some w
  | .date w => some w
  | .text s => some (quote s)
  | .list items => (inlineItems? items).map fun ss => "[" ++ ", ".intercalate ss ++ "]"
  | .table es => (inlineEntries? es).map fun ss => "\x7b " ++ ", ".intercalate ss ++ " \x7d"

def inlineItems? : List Tree → Option (List String)
  | [] => some []
  | t :: ts => do
    let s ← inline? t
    let ss ← inlineItems? ts
    some (s :: ss)

def inlineEntries? : List (String × Tree) → Option (List String)
  | [] => some []
  | (k, t) :: es => do
    let s ← inline? t
    let ss ← inlineEntries? es
    some ((writeKey k ++ " = " ++ s) :: ss)

end

def header (path : List String) : String := ".".intercalate (path.map writeKey)

mutual

def section? (path : List String) : Tree → Option (List String)
  | .table es => do
    let plain ← plain? es
    let below ← below? path es
    some (("[" ++ header path ++ "]") :: plain ++ below)
  | .list items => sections? path items
  | _ => some []

def sections? (path : List String) : List Tree → Option (List String)
  | [] => some []
  | .table es :: items => do
    let plain ← plain? es
    let below ← below? path es
    let rest ← sections? path items
    some (("[[" ++ header path ++ "]]") :: plain ++ below ++ rest)
  | _ :: items => sections? path items

def plain? : List (String × Tree) → Option (List String)
  | [] => some []
  | (k, t) :: es =>
    if hasHeader t then plain? es
    else do
      let s ← inline? t
      let ss ← plain? es
      some ((writeKey k ++ " = " ++ s) :: ss)

def below? (path : List String) : List (String × Tree) → Option (List String)
  | [] => some []
  | (k, t) :: es =>
    if hasHeader t then do
      let ss ← section? (path ++ [k]) t
      let rest ← below? path es
      some (ss ++ rest)
    else below? path es

end

/-- The document of a table; none when some value has no form in TOML. -/
def write? : Tree → Option String
  | .table es => do
    let plain ← plain? es
    let below ← below? [] es
    some (String.join ((plain ++ below).map (· ++ "\n")))
  | _ => none

end FragmentMerge.Toml

import FragmentMerge.Text.Basic

/-! Columns: the lines of a model. A column has a name, a type and attributes; a raw line, which is a
comment or an attribute of the whole model, is kept as it is and has no type. -/

namespace FragmentMerge

/-- What an attribute of a column says, with the text of its arguments. -/
inductive Directive where
  | id
  | unique
  | default (args : String)
  | relation (args : String)
  | map (args : String)
  | updatedAt
  | ignore
  | other (token : String)
  deriving DecidableEq, Repr

namespace Directive

/-- The text inside the brackets of a call; empty when the attribute is no call. -/
def arguments (name token : List Char) : String :=
  match Text.after? name token with
  | some ('(' :: rest) => String.ofList ((Text.before? [')'] rest).getD [])
  | _ => ""

def isBareOrCall (name token : List Char) : Bool :=
  match Text.after? name token with
  | some [] => true
  | some ('(' :: _) => true
  | _ => false

def parse (s : String) : Directive :=
  let t := s.toList
  if isBareOrCall "@id".toList t then .id
  else if isBareOrCall "@unique".toList t then .unique
  else if Text.startsWith t "@default".toList then .default (arguments "@default".toList t)
  else if Text.startsWith t "@relation".toList then .relation (arguments "@relation".toList t)
  else if Text.startsWith t "@map".toList then .map (arguments "@map".toList t)
  else if s = "@updatedAt" then .updatedAt
  else if s = "@ignore" then .ignore
  else .other s

def isRelation : Directive → Bool
  | relation _ => true
  | _ => false

def isDefault : Directive → Bool
  | default _ => true
  | _ => false

end Directive

structure Column where
  name : String
  type : String
  constraints : List String
  deriving DecidableEq, Repr

namespace Column

/-- How deep the reader of a line is in brackets, and whether it is inside quotes. -/
structure Nesting where
  depth : Nat
  quoted : Bool
  escaped : Bool
  deriving DecidableEq, Repr

namespace Nesting

def initial : Nesting := ⟨0, false, false⟩

def next (n : Nesting) (c : Char) : Nesting :=
  if n.quoted then
    if n.escaped then { n with escaped := false }
    else if c = '\\' then { n with escaped := true }
    else if c = '"' then { n with quoted := false }
    else n
  else if c = '"' then { n with quoted := true }
  else if c = '(' || c = '[' || c = '\x7b' then { n with depth := n.depth + 1 }
  else if c = ')' || c = ']' || c = '\x7d' then { n with depth := n.depth - 1 }
  else n

def separates (n : Nesting) (c : Char) : Bool := !n.quoted && n.depth == 0 && Text.isBlank c

end Nesting

/-- The pieces of a line between blanks that stand outside of brackets and quotes. -/
def pieces (n : Nesting) : List Char → List (List Char)
  | [] => [[]]
  | c :: s =>
    if n.separates c then [] :: pieces n s
    else match pieces (n.next c) s with
    | [] => [[c]]
    | t :: ts => (c :: t) :: ts

def tokens (s : List Char) : List (List Char) := (pieces .initial s).filter (!·.isEmpty)

def raw (line : String) : Column := ⟨line, "", []⟩

def isRaw (c : Column) : Bool := c.type.isEmpty

def isRawLine (s : List Char) : Bool := Text.startsWith s ['@', '@'] || Text.startsWith s ['/', '/']

def parse (line : String) : Column :=
  let s := Text.trim line.toList
  if isRawLine s then raw (String.ofList s)
  else match (tokens s).map String.ofList with
  | [] => raw ""
  | [name] => raw name
  | name :: type :: constraints => ⟨name, type, constraints⟩

/-- The type without a final question mark and the brackets before it. -/
def baseOf (type : List Char) : List Char :=
  let t := (Text.before? ['?'] type).getD type
  (Text.before? ['[', ']'] t).getD t

def baseType (c : Column) : String := String.ofList (baseOf c.type.toList)

def typeSuffix (c : Column) : String :=
  String.ofList (c.type.toList.drop (baseOf c.type.toList).length)

/-- Changes the type and keeps what modifies it. -/
def retype (c : Column) (base : String) : Column := { c with type := base ++ c.typeSuffix }

def directives (c : Column) : List Directive := c.constraints.map Directive.parse

def isRelation (c : Column) : Bool := c.directives.any Directive.isRelation

def hasDefault (c : Column) : Bool := c.directives.any Directive.isDefault

def isId (c : Column) : Bool :=
  if c.isRaw then Text.startsWith c.name.toList "@@id".toList else c.directives.contains .id

/-- Whether a relation of the column names the columns that hold it. -/
def holdsRelation (c : Column) : Bool :=
  c.directives.any fun
    | .relation args => Text.isPieceOf "fields:" args
    | _ => false

def format (c : Column) : String :=
  if c.isRaw then c.name else " ".intercalate (c.name :: c.type :: c.constraints)

end Column

end FragmentMerge
